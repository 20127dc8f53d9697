/-
The bound on the decompressed size of a ZRLE rectangle, and the inflater
that is held to it (`vnc_rfb_protocol.cpp`).

# The bound

`maxZrleDecodedBytes` allows every pixel a compact pixel and one length
byte, and every tile a subencoding byte and a palette of 127 colours. A
tile never takes more: each subencoding is bounded separately, and the
tiles of a rectangle partition its pixels.

# The inflater

`inflateChunk` runs zlib 64 KiB at a time. zlib is a parameter; what is
used of it is that a call fills its output buffer while decoded bytes
are left, takes all input when they are not, and reports an error code
only when it made no progress.
-/
import RemoteDesk.Vnc.TileAgreement

namespace RemoteDesk.Vnc

open Lib (Parser)
open Lib.Parser (Costs Leaves)

-- =================================== bound

/-- `maxZrleDecodedBytes`. -/
def maxZrleDecodedBytes (width height : Int32) (format : PixelFormat) :
    Option Nat :=
  if width ≤ 0 ∨ height ≤ 0 ∨ !format.validPixelFormat then none
  else do
    let width := width.toNatClampNeg
    let height := height.toNatClampNeg
    let pixels ← checkedMultiply width height
    let compactBytes := format.compactPixelBytes
    let perPixelBytes ← checkedAdd compactBytes 1
    let runBytes ← checkedMultiply pixels perPixelBytes
    let tileColumns := (width + 63) % sizeLimit / 64
    let tileRows := (height + 63) % sizeLimit / 64
    let tileCount ← checkedMultiply tileColumns tileRows
    let paletteBytes ← checkedMultiply 127 compactBytes
    let perTileBytes ← checkedAdd 1 paletteBytes
    let overheadBytes ← checkedMultiply tileCount perTileBytes
    checkedAdd runBytes overheadBytes

/-- The bound in exact arithmetic. -/
def decodedBound (width height compactBytes : Nat) : Nat :=
  width * height * (compactBytes + 1)
    + (width + 63) / 64 * ((height + 63) / 64) * (1 + 127 * compactBytes)

variable {format : PixelFormat} {compactBytes : Nat} {data : Bytes}

/-- A returned bound was computed without overflow. -/
theorem maxZrleDecodedBytes_eq {width height : Int32} {maxBytes : Nat}
    (h : maxZrleDecodedBytes width height format = some maxBytes) :
    format.validPixelFormat = true
      ∧ maxBytes = decodedBound width.toNatClampNeg
        height.toNatClampNeg format.compactPixelBytes
      ∧ maxBytes < sizeLimit := by
  have hlimit : sizeLimit = 2 ^ 64 := rfl
  have hw := width.toNatClampNeg_lt
  have hh := height.toNatClampNeg_lt
  unfold maxZrleDecodedBytes at h
  by_cases hinvalid :
      width ≤ 0 ∨ height ≤ 0 ∨ (!format.validPixelFormat) = true
  · rw [if_pos hinvalid] at h
    cases h
  rw [if_neg hinvalid] at h
  have hvalid : format.validPixelFormat = true := by
    by_contra hv
    exact hinvalid (.inr (.inr (by simpa using hv)))
  have hbytes := (PixelFormat.compactPixelBytes_bounds format hvalid).2
  simp only [Option.bind_eq_bind, Option.bind_eq_some_iff] at h
  obtain ⟨pixels, hpixels, perPixelBytes, hper, runBytes, hrun, tileCount,
    htiles, paletteBytes, hpalette, perTileBytes, htile, overheadBytes,
    hoverhead, hsum⟩ := h
  obtain ⟨rfl, -⟩ := checkedMultiply_eq hpixels
  obtain ⟨rfl, -⟩ := checkedAdd_eq (by omega) hper
  obtain ⟨rfl, hrunlt⟩ := checkedMultiply_eq hrun
  obtain ⟨rfl, -⟩ := checkedMultiply_eq htiles
  obtain ⟨rfl, -⟩ := checkedMultiply_eq hpalette
  obtain ⟨rfl, -⟩ := checkedAdd_eq (by omega) htile
  obtain ⟨rfl, -⟩ := checkedMultiply_eq hoverhead
  obtain ⟨rfl, hlt⟩ := checkedAdd_eq hrunlt hsum
  rw [Nat.mod_eq_of_lt (by omega : width.toNatClampNeg + 63 < sizeLimit),
    Nat.mod_eq_of_lt (by omega : height.toNatClampNeg + 63 < sizeLimit)]
    at hlt ⊢
  exact ⟨hvalid, rfl, hlt⟩

theorem maxZrleDecodedBytes_pos {width height : Int32} {maxBytes : Nat}
    (h : maxZrleDecodedBytes width height format = some maxBytes) :
    1 ≤ width.toNatClampNeg ∧ 1 ≤ height.toNatClampNeg := by
  unfold maxZrleDecodedBytes at h
  by_cases hinvalid :
      width ≤ 0 ∨ height ≤ 0 ∨ (!format.validPixelFormat) = true
  · rw [if_pos hinvalid] at h
    cases h
  · obtain ⟨hw, hrest⟩ := not_or.mp hinvalid
    obtain ⟨hh, -⟩ := not_or.mp hrest
    exact ⟨(Int32.toNatClampNeg_pos_iff width).mpr (Int32.not_le.mp hw),
      (Int32.toNatClampNeg_pos_iff height).mpr (Int32.not_le.mp hh)⟩

-- ========================== cost of a tile

/-- The room `maxZrleDecodedBytes` leaves for a tile. -/
def tileBound (compactBytes count : Nat) : Nat :=
  (1 + 127 * compactBytes) + (compactBytes + 1) * count

private theorem costs_skip (count : Nat) (error : String) :
    Costs (skip count error) fun _ => count :=
  (Costs.readBytes count error).bind (fun _ => Costs.pure ())
    fun _ _ => Nat.le_refl (count + 0)

private theorem costs_skipItems (count size : Nat) (error : String) :
    Costs (skipItems count size error) fun _ => count * size := by
  unfold skipItems
  cases h : checkedMultiply count size with
  | none => exact Costs.fail error
  | some bytes =>
    obtain ⟨rfl, -⟩ := checkedMultiply_eq h
    exact costs_skip _ error

/-- A plain run costs a pixel and its length bytes. -/
private theorem cost_scanPlainRun {remaining : Nat} (hpos : 1 ≤ remaining)
    {s r : Bytes} {n : Nat} {u : Unit}
    (h : scanPlainRun compactBytes remaining s = .ok ((n, u), r)) :
    n ≤ remaining ∧ s.length ≤ r.length + (compactBytes + 1) * n := by
  obtain ⟨u', m, hskip, h⟩ := Parser.bind_ok.mp h
  obtain ⟨n', m', hrun, h⟩ := Parser.bind_ok.mp h
  cases h
  have hpixel : s.length ≤ m.length + compactBytes :=
    costs_skip _ _ _ _ _ hskip
  obtain ⟨hone, hle, hcost⟩ := readRunLength_bounds hpos hrun
  have hmul : compactBytes * 1 ≤ compactBytes * n :=
    Nat.mul_le_mul_left _ hone
  refine ⟨hle, ?_⟩
  rw [Nat.add_mul, Nat.one_mul]
  omega

/-- A palette run costs its index and its length bytes. -/
private theorem cost_scanPaletteRun {paletteSize remaining : Nat}
    (hpos : 1 ≤ remaining) {s r : Bytes} {n index : Nat}
    (h : scanPaletteRun paletteSize remaining s = .ok ((n, index), r)) :
    n ≤ remaining ∧ s.length ≤ r.length + 2 * n := by
  obtain ⟨encodedIndex, m, hread, hrest⟩ := Parser.bind_ok.mp h
  obtain rfl := Parser.readOne_ok.mp hread
  rw [List.length_cons]
  by_cases hout : (encodedIndex &&& 0x7F).toNat ≥ paletteSize
  · rw [if_pos hout] at hrest
    cases hrest
  rw [if_neg hout] at hrest
  obtain ⟨n', m', hrun, hrest⟩ := Parser.bind_ok.mp hrest
  cases hrest
  unfold paletteRunLength at hrun
  by_cases hbit : encodedIndex &&& 0x80 ≠ 0
  · rw [if_pos hbit] at hrun
    have := readRunLength_bounds hpos hrun
    omega
  · rw [if_neg hbit] at hrun
    cases hrun
    omega

/-- No subencoding takes more than the bound of its tile. -/
theorem costs_scanZrleTile {tileWidth tileHeight : Nat}
    (hpos : 1 ≤ compactBytes) (hwidth : 1 ≤ tileWidth) :
    Costs (scanZrleTile compactBytes tileWidth tileHeight) fun _ =>
      tileBound compactBytes (tileWidth * tileHeight) := by
  refine Costs.bind (Costs.readOne _) (l := fun _ _ =>
    127 * compactBytes + (compactBytes + 1) * (tileWidth * tileHeight))
    (fun subencoding => ?_) fun _ _ => by unfold tileBound; omega
  -- Each subencoding against the palette and the runs of the bound.
  have hcount : (tileWidth * tileHeight) * compactBytes
      ≤ (compactBytes + 1) * (tileWidth * tileHeight) := by
    rw [Nat.mul_comm, Nat.add_mul]
    omega
  unfold scanSubencoding
  by_cases hinvalid : (17 ≤ subencoding ∧ subencoding ≤ 127)
      ∨ subencoding = 129
  · rw [if_pos hinvalid]
    exact Costs.fail _
  rw [if_neg hinvalid]
  by_cases hraw : subencoding = 0
  · rw [if_pos hraw]
    exact (costs_skipItems _ _ _).weaken fun _ => by omega
  rw [if_neg hraw]
  by_cases hsolid : subencoding = 1
  · rw [if_pos hsolid]
    exact (costs_skip _ _).weaken fun _ => by omega
  rw [if_neg hsolid]
  by_cases hpacked : 2 ≤ subencoding ∧ subencoding ≤ 16
  · rw [if_pos hpacked]
    have hsize : subencoding.toNat * compactBytes ≤ 16 * compactBytes :=
      Nat.mul_le_mul_right _ (UInt8.le_iff_toNat_le.mp hpacked.2)
    have hrow : packedRowBytes tileWidth subencoding.toNat * tileHeight
        ≤ (compactBytes + 1) * (tileWidth * tileHeight) :=
      calc packedRowBytes tileWidth subencoding.toNat * tileHeight
          ≤ tileWidth * tileHeight :=
            Nat.mul_le_mul_right _ (packedRowBytes_le _ hwidth)
        _ ≤ (compactBytes + 1) * (tileWidth * tileHeight) :=
            Nat.le_mul_of_pos_left _ (Nat.succ_pos _)
    exact (costs_skipItems _ _ _).bind
      (fun _ => costs_skipItems _ _ _) fun _ _ => by omega
  rw [if_neg hpacked]
  by_cases hplain : subencoding = 128
  · rw [if_pos hplain]
    exact (Costs.fill (c := compactBytes + 1)
      (fun _ _ _ _ _ hk h => cost_scanPlainRun hk h) _ _).bind
      (fun _ => Costs.pure ()) (l := fun _ _ => 0) fun _ _ => by omega
  rw [if_neg hplain]
  by_cases hrange : subencoding.toNat - 128 < 2
      ∨ 127 < subencoding.toNat - 128
  · rw [if_pos hrange]
    exact Costs.fail _
  rw [if_neg hrange]
  have hpalette : (subencoding.toNat - 128) * compactBytes
      ≤ 127 * compactBytes := Nat.mul_le_mul_right _ (by omega)
  have hruns : 2 * (tileWidth * tileHeight)
      ≤ (compactBytes + 1) * (tileWidth * tileHeight) :=
    Nat.mul_le_mul_right _ (by omega)
  refine (costs_skipItems _ _ _).bind (l := fun _ _ =>
    2 * (tileWidth * tileHeight)) (fun _ => ?_) fun _ _ => by omega
  exact (Costs.fill (c := 2)
    (fun _ _ _ _ _ hk h => cost_scanPaletteRun hk h) _ _).bind
    (fun _ => Costs.pure ()) (l := fun _ _ => 0) fun _ _ => by omega

-- ===================== cost of a rectangle

/-- Tiles 64 apart and at most 64 long cover a length once. -/
theorem sum_tileStarts (length : Nat) :
    ((tileStarts length).map fun start => min 64 (length - start)).sum
      = length := by
  have hfirst : ∀ k, ((List.range k).map fun i =>
      min 64 (length - 64 * i)).sum = min (64 * k) length := by
    intro k
    induction k with
    | zero => rw [List.range_zero, List.map_nil, List.sum_nil]; omega
    | succ k ih =>
      rw [List.range_succ, List.map_append, List.sum_append, ih,
        List.map_singleton, List.sum_singleton]
      omega
  unfold tileStarts
  rw [List.map_map]
  exact (hfirst _).trans (by omega)

/-- The tiles of a rectangle have as many pixels as it has. -/
theorem sum_tileRects (width height : Nat) :
    ((tileRects width height).map fun rect =>
      rect.width * rect.height).sum = width * height := by
  unfold tileRects
  rw [List.map_flatMap, List.flatMap_def, List.sum_flatten, List.map_map]
  have hrow : ∀ tileY : Nat, (((tileStarts width).map fun tileX =>
      (⟨tileX, tileY, min 64 (width - tileX),
        min 64 (height - tileY)⟩ : TileRect)).map fun rect =>
      rect.width * rect.height).sum
      = width * min 64 (height - tileY) := by
    intro tileY
    rw [List.map_map]
    show ((tileStarts width).map fun tileX =>
      min 64 (width - tileX) * min 64 (height - tileY)).sum = _
    rw [List.sum_map_mul_right, sum_tileStarts]
  rw [show (List.sum ∘ fun tileY => _) = fun tileY =>
    width * min 64 (height - tileY) from funext hrow,
    List.sum_map_mul_left, sum_tileStarts]

theorem length_tileRects (width height : Nat) :
    (tileRects width height).length
      = (width + 63) / 64 * ((height + 63) / 64) := by
  unfold tileRects tileStarts
  simp only [List.length_flatMap, List.length_map, List.length_range,
    List.map_const', List.sum_replicate, smul_eq_mul]
  exact Nat.mul_comm _ _

/-- A scanned list of tiles took at most the tiles' bounds. -/
private theorem cost_scanTiles (hpos : 1 ≤ compactBytes) :
    ∀ {rects : List TileRect} {k : Nat} {r : Bytes}
      {jobs : List ZrleTileJob}, k ≤ data.length →
      (∀ rect ∈ rects, 1 ≤ rect.width) →
      scanTiles compactBytes data.length rects (data.drop k)
        = .ok (jobs, r) →
      (data.drop k).length ≤ r.length + (rects.map fun rect =>
        tileBound compactBytes (rect.width * rect.height)).sum := by
  intro rects
  induction rects with
  | nil =>
    intro k r jobs _ _ h
    cases h
    exact Nat.le_add_right ..
  | cons rect rects ih =>
    intro k r jobs hk hwidths h
    obtain ⟨k', rest, -, hk', hscan, hrest, -⟩ := scanTiles_cons hk h
    have htile : (data.drop k).length ≤ (data.drop k').length
        + tileBound compactBytes (rect.width * rect.height) :=
      costs_scanZrleTile hpos (hwidths rect List.mem_cons_self)
        _ _ _ hscan
    have htiles := ih hk' (fun x hx =>
      hwidths x (List.mem_cons_of_mem _ hx)) hrest
    rw [List.map_cons, List.sum_cons]
    omega

/-- The tiles' bounds add up to the bound of the rectangle. -/
private theorem sum_tileBound (width height compactBytes : Nat) :
    ((tileRects width height).map fun rect =>
      tileBound compactBytes (rect.width * rect.height)).sum
      = decodedBound width height compactBytes := by
  unfold tileBound
  rw [List.sum_map_add, List.sum_map_mul_left, sum_tileRects,
    List.map_const', List.sum_replicate, length_tileRects, smul_eq_mul]
  unfold decodedBound
  rw [Nat.mul_comm (compactBytes + 1), Nat.add_comm]

/-- Every accepted encoding of a rectangle is within its bound. -/
theorem length_le_decodedBound (hvalid : format.validPixelFormat = true)
    {reserved : Bool} {width height : Nat} {jobs : List ZrleTileJob}
    (h : buildZrleTileJobs reserved width height
      format.compactPixelBytes data = .ok jobs) :
    data.length
      ≤ decodedBound width height format.compactPixelBytes := by
  obtain ⟨hscan, -, -⟩ := buildZrleTileJobs_scanned h
  have hcost := cost_scanTiles
    (PixelFormat.compactPixelBytes_bounds format hvalid).1
    (Nat.zero_le _)
    (fun rect hrect => (tileSize_of_mem hrect).width_pos) hscan
  rwa [List.drop_zero, sum_tileBound, List.length_nil, Nat.zero_add]
    at hcost

-- ================================ inflater

/-- What zlib's `inflate` reports. -/
inductive ZStatus
  | ok
  | bufError
  | streamEnd
  | failure
deriving DecidableEq, Repr

/-- One call of `inflate`: the stream after it, the input it left, the
bytes it produced and its status. -/
structure ZCall (Z : Type) where
  stream : Z
  input : Bytes
  produced : Bytes
  status : ZStatus

/-- `inflate` with `Z_SYNC_FLUSH` on some input and output room. -/
abbrev Inflate (Z : Type) := Z → Bytes → Nat → ZCall Z

def kInflateChunkBytes : Nat := 64 * 1024

/-- The RFB form of zlib's sync flush marker. -/
def flushMarker : Bytes := [0, 0, 0xFF, 0xFF]

section Inflater

variable {Z : Type} (inflate : Inflate Z) (maxOutputBytes : Nat)

/-- The loop of `inflateChunk`. A round that neither ends the loop nor
fails consumes input or produces output, so the rounds are bounded. -/
def inflateLoop : Nat → Z → Bytes → Bytes → Except String (Z × Bytes)
  | 0, _, _, _ => .error "VNC ZRLE inflater made no progress"
  | fuel + 1, stream, input, output =>
    let call := inflate stream input kInflateChunkBytes
    if call.produced.length > maxOutputBytes - output.length then
      .error "VNC ZRLE decompressed output exceeds the safe limit"
    else
      let produced := output ++ call.produced
      if call.status = .streamEnd then
        .error "VNC ZRLE stream ended before the RFB connection"
      else if call.status ≠ .ok ∧ call.status ≠ .bufError then
        .error "VNC ZRLE compressed stream is malformed"
      else
        let inputConsumed := call.input = []
        let outputRoom := call.produced.length < kInflateChunkBytes
        if inputConsumed ∧ (outputRoom ∨ call.status = .bufError) then
          if call.input ≠ [] ∨ produced = [] then
            .error "VNC ZRLE compressed rectangle is truncated"
          else .ok (call.stream, produced)
        else if input.length = call.input.length
            ∧ call.produced = [] then
          .error "VNC ZRLE inflater made no progress"
        else if produced.length = maxOutputBytes
            ∧ (¬ inputConsumed ∨ ¬ outputRoom) then .error
          "VNC ZRLE decompressed output reaches an unsafe boundary"
        else inflateLoop fuel call.stream call.input produced

/-- `ZrleInflater::inflateChunk`. `stream` is the connection's stream
once initialized, `inflateInit` its initialization, and `reserved` says
whether the output could be allocated, after which it no longer grows. -/
def inflateChunk (inflateInit : Option Z) (reserved : Bool)
    (stream : Option Z) (compressed : Bytes) :
    Except String (Z × Bytes) :=
  if compressed = [] ∨ compressed.length > 2 ^ 32 - 1
      ∨ maxOutputBytes = 0 then
    .error "VNC ZRLE compressed input is invalid"
  else if compressed.length < 4
      ∨ compressed.drop (compressed.length - 4) ≠ flushMarker then
    .error "VNC ZRLE rectangle lacks the required zlib flush marker"
  else match stream <|> inflateInit with
    | none => .error "VNC ZRLE zlib initialization failed"
    | some stream =>
      if !reserved then
        .error "VNC ZRLE decompressed allocation failed"
      else inflateLoop inflate maxOutputBytes
        (compressed.length + maxOutputBytes + 2) stream compressed []

end Inflater

/-- The behaviour of zlib the inflater relies on. `Pending z input data`
says that `data` is what stream `z` has still to deliver for `input`. A
call fills the output buffer from `data`; when `data` does not fill it
all input is taken; an error is `bufError` and means no progress. -/
structure Inflates {Z : Type} (inflate : Inflate Z)
    (Pending : Z → Bytes → Bytes → Prop) : Prop where
  produced : ∀ {z input data} room, Pending z input data →
    (inflate z input room).produced = data.take room
  drained : ∀ {z input data} room, Pending z input data →
    data.length < room → (inflate z input room).input = []
  status : ∀ {z input data} room, Pending z input data →
    (inflate z input room).status = .ok
      ∨ (inflate z input room).status = .bufError
        ∧ (inflate z input room).produced = []
  next : ∀ {z input data} room, Pending z input data →
    Pending (inflate z input room).stream (inflate z input room).input
      (data.drop room)

/-- The loop delivers what is pending, or stops at the boundary: the
output is full, and so is the buffer that filled it. -/
theorem inflateLoop_pending {Z : Type} {inflate : Inflate Z}
    {Pending : Z → Bytes → Bytes → Prop} (hz : Inflates inflate Pending)
    {maxOutputBytes : Nat} :
    ∀ {fuel : Nat} {stream : Z} {input output data : Bytes},
      Pending stream input data →
      data.length / 65536 < fuel →
      output.length + data.length ≤ maxOutputBytes →
      output ++ data ≠ [] →
      (∃ stream', inflateLoop inflate maxOutputBytes fuel stream input
          output = .ok (stream', output ++ data)
        ∧ ¬ (data ≠ [] ∧ output.length + data.length = maxOutputBytes
          ∧ data.length % 65536 = 0))
      ∨ inflateLoop inflate maxOutputBytes fuel stream input output
          = .error
            "VNC ZRLE decompressed output reaches an unsafe boundary"
        ∧ output.length + data.length = maxOutputBytes
        ∧ data.length % 65536 = 0 := by
  have hchunk : kInflateChunkBytes = 65536 := rfl
  intro fuel
  induction fuel with
  | zero => intro stream input output data _ hfuel; omega
  | succ fuel ih =>
    intro stream input output data hpending hfuel hroom hne
    have hproduced := hz.produced kInflateChunkBytes hpending
    have hstatus := hz.status kInflateChunkBytes hpending
    have hnext := hz.next kInflateChunkBytes hpending
    have hdrained := hz.drained kInflateChunkBytes hpending
    rw [inflateLoop]
    generalize inflate stream input kInflateChunkBytes = call at *
    have hlen : call.produced.length
        = min kInflateChunkBytes data.length := by
      rw [hproduced, List.length_take]
    dsimp only
    rw [if_neg (by omega : ¬ call.produced.length
      > maxOutputBytes - output.length)]
    have hend : call.status ≠ .streamEnd := by
      rcases hstatus with h | ⟨h, -⟩ <;> rw [h] <;> decide
    have hcode : ¬ (call.status ≠ .ok ∧ call.status ≠ .bufError) := by
      rcases hstatus with h | ⟨h, -⟩ <;> rw [h] <;> decide
    rw [if_neg hend, if_neg hcode]
    by_cases hshort : data.length < kInflateChunkBytes
    · -- The last, partial buffer ends the loop.
      have htake : call.produced = data := by
        rw [hproduced, List.take_of_length_le (by omega)]
      rw [if_pos ⟨hdrained hshort, .inl (by omega)⟩, htake,
        if_neg (not_or.mpr ⟨not_not.mpr (hdrained hshort), hne⟩)]
      refine .inl ⟨call.stream, rfl, ?_⟩
      rintro ⟨hdata, -, hmod⟩
      have := List.length_pos_of_ne_nil hdata
      omega
    · -- A full buffer is progress, so zlib reports no error.
      have hfull : call.produced ≠ [] := by
        intro h
        rw [h, List.length_nil] at hlen
        omega
      have hok : call.status = .ok := by
        rcases hstatus with h | ⟨-, h⟩
        · exact h
        · exact absurd h hfull
      have hbreak : ¬ (call.input = []
          ∧ (call.produced.length < kInflateChunkBytes
            ∨ call.status = .bufError)) := by
        rintro ⟨-, h | h⟩
        · omega
        · rw [hok] at h; cases h
      rw [if_neg hbreak, if_neg (fun h => hfull h.2)]
      by_cases hmax : (output ++ call.produced).length = maxOutputBytes
      · rw [if_pos ⟨hmax, .inr (by omega)⟩]
        rw [List.length_append] at hmax
        exact .inr ⟨rfl, by omega, by omega⟩
      · rw [if_neg (fun h => hmax h.1)]
        rw [List.length_append] at hmax
        have hdrop : (data.drop kInflateChunkBytes).length
            = data.length - kInflateChunkBytes := List.length_drop
        have hsplit : (output ++ call.produced)
            ++ data.drop kInflateChunkBytes = output ++ data := by
          rw [hproduced, List.append_assoc, List.take_append_drop]
        have hrest : (output ++ call.produced).length
            + (data.drop kInflateChunkBytes).length
            ≤ maxOutputBytes := by
          rw [List.length_append]
          omega
        have hrec := ih hnext (by omega) hrest (by rw [hsplit]; exact hne)
        rw [hsplit, List.length_append] at hrec
        rcases hrec with ⟨stream', h, hnot⟩ | ⟨h, hsum, hmod⟩
        · refine .inl ⟨stream', h, ?_⟩
          rintro ⟨-, hsum, hmod⟩
          refine hnot ⟨?_, by omega, by omega⟩
          intro hnil
          rw [hnil, List.length_nil] at hdrop
          omega
        · exact .inr ⟨h, by omega, by omega⟩

/-- What `inflateChunk` makes of a chunk that decodes to `data` within
the limit: `data`, unless it fills the limit and the last buffer. -/
theorem inflateChunk_pending {Z : Type} {inflate : Inflate Z}
    {Pending : Z → Bytes → Bytes → Prop} (hz : Inflates inflate Pending)
    {maxOutputBytes : Nat} (inflateInit : Option Z) {stream : Z}
    {compressed : Bytes} (hlen : compressed.length < 2 ^ 32)
    (hmarker : flushMarker <:+ compressed)
    (hpending : Pending stream compressed data) (hne : data ≠ [])
    (hle : data.length ≤ maxOutputBytes) :
    (∃ stream', inflateChunk inflate maxOutputBytes inflateInit true
        (some stream) compressed = .ok (stream', data)
      ∧ ¬ (data.length = maxOutputBytes ∧ maxOutputBytes % 65536 = 0))
    ∨ inflateChunk inflate maxOutputBytes inflateInit true
        (some stream) compressed
        = .error
          "VNC ZRLE decompressed output reaches an unsafe boundary"
      ∧ data.length = maxOutputBytes ∧ maxOutputBytes % 65536 = 0 := by
  have hpos := List.length_pos_of_ne_nil hne
  obtain ⟨pre, rfl⟩ := hmarker
  have hfour : flushMarker.length = 4 := rfl
  have hdrop : (pre ++ flushMarker).drop
      ((pre ++ flushMarker).length - 4) = flushMarker := by
    rw [List.length_append, hfour, Nat.add_sub_cancel, List.drop_left]
  have hsplit : (pre ++ flushMarker).length
      = pre.length + flushMarker.length := List.length_append
  unfold inflateChunk
  rw [if_neg (by
      rintro (h | h | h)
      · rw [h, List.length_nil] at hsplit; omega
      · omega
      · omega),
    if_neg (by
      rintro (h | h)
      · omega
      · exact h hdrop)]
  show (∃ stream', inflateLoop inflate maxOutputBytes _ stream _ []
      = .ok (stream', data) ∧ _)
    ∨ inflateLoop inflate maxOutputBytes _ stream _ [] = .error _ ∧ _
  have hroom : ([] : Bytes).length + data.length ≤ maxOutputBytes := by
    rw [List.length_nil]
    omega
  have hloop := inflateLoop_pending hz hpending
    (by omega : data.length / 65536
      < (pre ++ flushMarker).length + maxOutputBytes + 2)
    hroom (by rwa [List.nil_append])
  rw [List.nil_append, List.length_nil, Nat.zero_add] at hloop
  rcases hloop with ⟨stream', h, hnot⟩ | ⟨h, hsum, hmod⟩
  · refine .inl ⟨stream', h, ?_⟩
    rintro ⟨hsum, hmod⟩
    exact hnot ⟨hne, hsum, by rwa [hsum]⟩
  · exact .inr ⟨h, hsum, by rwa [← hsum]⟩

/-- A rectangle with pixels has an encoding of at least one byte. -/
theorem data_ne_nil {reserved : Bool} {width height : Nat}
    {jobs : List ZrleTileJob} (hwidth : 1 ≤ width) (hheight : 1 ≤ height)
    (h : buildZrleTileJobs reserved width height compactBytes data
      = .ok jobs) : data ≠ [] := by
  rintro rfl
  obtain ⟨hscan, -, -⟩ := buildZrleTileJobs_scanned h
  have hlen := length_tileRects width height
  have hcols : 1 ≤ (width + 63) / 64 := by omega
  have hrows : 1 ≤ (height + 63) / 64 := by omega
  have hmany := Nat.mul_le_mul hcols hrows
  cases hrects : tileRects width height with
  | nil => rw [hrects, List.length_nil] at hlen; omega
  | cons rect rects => rw [hrects] at hscan; cases hscan

/-- The bound is sound. It is computed without overflow, every accepted
encoding of the rectangle is within it, and of an accepted encoding that
zlib delivers the inflater refuses only one that fills the bound to the
byte when the bound is a whole number of 64 KiB buffers. -/
theorem zrle_bound_sound (width height : Int32) (format : PixelFormat)
    (maxBytes : Nat)
    (h : maxZrleDecodedBytes width height format = some maxBytes) :
    (maxBytes = decodedBound width.toNatClampNeg height.toNatClampNeg
        format.compactPixelBytes ∧ maxBytes < sizeLimit)
    ∧ ∀ reserved data jobs,
        buildZrleTileJobs reserved width.toNatClampNeg
          height.toNatClampNeg format.compactPixelBytes data = .ok jobs →
        data.length ≤ maxBytes
        ∧ ∀ (Z : Type) (inflate : Inflate Z)
            (Pending : Z → Bytes → Bytes → Prop)
            (inflateInit : Option Z) (stream : Z) (compressed : Bytes),
            Inflates inflate Pending →
            compressed.length < 2 ^ 32 → flushMarker <:+ compressed →
            Pending stream compressed data →
            (∃ stream', inflateChunk inflate maxBytes inflateInit true
                (some stream) compressed = .ok (stream', data)
              ∧ ¬ (data.length = maxBytes ∧ maxBytes % 65536 = 0))
            ∨ inflateChunk inflate maxBytes inflateInit true
                (some stream) compressed = .error
                "VNC ZRLE decompressed output reaches an unsafe boundary"
              ∧ data.length = maxBytes ∧ maxBytes % 65536 = 0 := by
  obtain ⟨hvalid, hmax, hlt⟩ := maxZrleDecodedBytes_eq h
  obtain ⟨hwidth, hheight⟩ := maxZrleDecodedBytes_pos h
  refine ⟨⟨hmax, hlt⟩, fun reserved data jobs hjobs => ?_⟩
  have hle : data.length ≤ maxBytes := by
    rw [hmax]
    exact length_le_decodedBound hvalid hjobs
  exact ⟨hle, fun Z inflate Pending inflateInit stream compressed hz hlen
    hmarker hpending => inflateChunk_pending hz inflateInit hlen hmarker hpending
      (data_ne_nil hwidth hheight hjobs) hle⟩

-- ========================= at the boundary

/-- A zlib whose chunks are the decoded bytes followed by the flush
marker, which it takes as soon as there is room left over. -/
def copyInflate : Inflate Unit := fun _ input room =>
  let decoded := input.take (input.length - 4)
  { stream := ()
    input := if decoded.length < room then [] else input.drop room
    produced := decoded.take room
    status := if input = [] then .bufError else .ok }

/-- What `copyInflate` has still to deliver. -/
def CopyPending (_ : Unit) (input data : Bytes) : Prop :=
  input = data ++ flushMarker ∨ input = [] ∧ data = []

private theorem copyInflate_pending {stream : Unit} {input : Bytes}
    (h : CopyPending stream input data) :
    input.take (input.length - 4) = data
      ∧ (input = [] → data = []) := by
  rcases h with rfl | ⟨rfl, rfl⟩
  · have hlen : (data ++ flushMarker).length - 4 = data.length := by
      rw [List.length_append]
      exact Nat.add_sub_cancel ..
    rw [hlen, List.take_left]
    exact ⟨rfl, fun h => (List.append_eq_nil_iff.mp h).1⟩
  · exact ⟨rfl, fun _ => rfl⟩

theorem copyInflate_inflates : Inflates copyInflate CopyPending where
  produced := by
    intro stream input data room h
    show (input.take (input.length - 4)).take room = _
    rw [(copyInflate_pending h).1]
  drained := by
    intro stream input data room h hshort
    show (if (input.take (input.length - 4)).length < room then []
      else input.drop room) = []
    rw [(copyInflate_pending h).1, if_pos hshort]
  status := by
    intro stream input data room h
    show (if input = [] then ZStatus.bufError else .ok) = .ok
      ∨ (if input = [] then ZStatus.bufError else .ok) = .bufError
        ∧ (input.take (input.length - 4)).take room = []
    by_cases hnil : input = []
    · rw [if_pos hnil, (copyInflate_pending h).1,
        (copyInflate_pending h).2 hnil]
      exact .inr ⟨rfl, List.take_nil⟩
    · rw [if_neg hnil]
      exact .inl rfl
  next := by
    intro stream input data room h
    show CopyPending () (if (input.take (input.length - 4)).length < room
      then [] else input.drop room) (data.drop room)
    rw [(copyInflate_pending h).1]
    by_cases hshort : data.length < room
    · rw [if_pos hshort, List.drop_of_length_le (by omega)]
      exact .inr ⟨rfl, rfl⟩
    · rw [if_neg hshort]
      rcases h with rfl | ⟨rfl, rfl⟩
      · rw [List.drop_append_of_le_length (by omega)]
        exact .inl rfl
      · exact .inr ⟨List.drop_nil, List.drop_nil⟩

/-- A one-pixel rectangle of the default format passes whole. -/
theorem zrle_bound_sound_pixel :
    [1, 0, 0, 255].length ≤ 386
    ∧ ∃ stream', inflateChunk copyInflate 386 none true (some ())
        ([1, 0, 0, 255] ++ flushMarker)
        = .ok (stream', [1, 0, 0, 255]) := by
  have hbound : maxZrleDecodedBytes 1 1 {} = some 386 := by decide
  obtain ⟨-, hall⟩ := zrle_bound_sound 1 1 {} 386 hbound
  obtain ⟨hle, hinflate⟩ := hall true [1, 0, 0, 255] _ rfl
  refine ⟨hle, ?_⟩
  rcases hinflate Unit copyInflate CopyPending none ()
      ([1, 0, 0, 255] ++ flushMarker) copyInflate_inflates (by decide)
      (List.suffix_append ..) (.inl rfl) with
    ⟨stream', h, -⟩ | ⟨-, h, -⟩
  · exact ⟨stream', h⟩
  · cases h

/-- The 8-bit format of `buildSetPixelFormat`. -/
def rgb332 : PixelFormat :=
  { bitsPerPixel := 8, depth := 8, redMax := 7, greenMax := 7,
    blueMax := 3, redShift := 5, greenShift := 2, blueShift := 0 }

/-- A tile of single-pixel runs under a palette of 127 colours: the
largest encoding a tile of one-byte pixels has. -/
def largestTile : Bytes :=
  255 :: (List.replicate 127 0 ++ (List.replicate 4096 [0x80, 0]).flatten)

/-- A 2048 by 1024 rectangle of such tiles. -/
def largestRectangle : Bytes := (List.replicate 512 largestTile).flatten

private theorem scan_singleRuns (rest : Bytes) :
    ∀ n fuel, n ≤ fuel →
      Parser.fill (scanPaletteRun 127) fuel n
        ((List.replicate n [0x80, 0]).flatten ++ rest)
        = .ok (List.replicate n 0, rest) := by
  intro n
  induction n with
  | zero =>
    intro fuel _
    cases fuel with
    | zero => rfl
    | succ fuel => rfl
  | succ n ih =>
    intro fuel hfuel
    obtain ⟨fuel, rfl⟩ : ∃ k, fuel = k + 1 := ⟨fuel - 1, by omega⟩
    have hrun : ∀ s : Bytes, scanPaletteRun 127 (n + 1) (0x80 :: 0 :: s)
        = .ok ((1, 0), s) := by
      intro s
      show (do
        let runLength ← paletteRunLength 0x80 (n + 1)
        pure (runLength, 0) : Zrle (Nat × Nat)) (0 :: s) = _
      have hlength : paletteRunLength 0x80 (n + 1) (0 :: s)
          = .ok (1, s) := by
        show readRunLength "VNC ZRLE palette RLE length is invalid"
          (n + 1) (0 :: s) = _
        have hzero : UInt8.toNat 0 = 0 := rfl
        unfold readRunLength
        rw [readRunLengthFrom, if_neg (by omega), if_pos (by decide)]
        rfl
      rw [Parser.bind_of_ok hlength]
      rfl
    rw [List.replicate_succ, List.flatten_cons, List.append_assoc,
      Parser.fill, if_neg (Nat.succ_ne_zero n)]
    rw [show ([0x80, 0] : Bytes) ++ ((List.replicate n
      [0x80, 0]).flatten ++ rest) = 0x80 :: 0 :: ((List.replicate n
      [0x80, 0]).flatten ++ rest) from rfl,
      Parser.bind_of_ok (hrun _)]
    dsimp only
    rw [Nat.add_sub_cancel, Parser.bind_of_ok (ih fuel (by omega))]
    rfl

private theorem scan_largestTile (rest : Bytes) :
    scanZrleTile 1 64 64 (largestTile ++ rest) = .ok ((), rest) := by
  have hskip : skipItems 127 1 "VNC ZRLE palette RLE palette is truncated"
      (List.replicate 127 0 ++ ((List.replicate 4096 [0x80, 0]).flatten
        ++ rest))
      = .ok ((), (List.replicate 4096 [0x80, 0]).flatten ++ rest) := by
    rw [skipItems_eq _ (by decide), Nat.mul_one]
    have hlen : (List.replicate 127 (0 : UInt8)).length = 127 :=
      List.length_replicate
    obtain ⟨u, h⟩ := skip_leaves.mpr ⟨(by
      rw [List.length_append, hlen]; omega : 127 ≤ (List.replicate 127
        (0 : UInt8) ++ ((List.replicate 4096 [0x80, 0]).flatten
          ++ rest)).length), (List.drop_left' hlen).symm⟩
    exact h
  have hpalette : ∀ reader, scanZrleTile 1 64 64 (255 :: reader)
      = scanPaletteRle 1 64 64 127 reader := by
    intro reader
    have hsize : UInt8.toNat 255 - 128 = 127 := rfl
    rw [scanZrleTile_cons]
    unfold scanSubencoding
    rw [if_neg (by decide), if_neg (by decide), if_neg (by decide),
      if_neg (by decide), if_neg (by decide), hsize, if_neg (by decide)]
  unfold largestTile
  rw [List.cons_append, hpalette, List.append_assoc]
  unfold scanPaletteRle
  rw [Parser.bind_of_ok hskip,
    Parser.bind_of_ok (scan_singleRuns rest 4096 4096 (Nat.le_refl _))]
  rfl

/-- Full tiles side by side are scanned whole. -/
private theorem scanTiles_largest (size : Nat) :
    ∀ rects : List TileRect,
      (∀ rect ∈ rects, rect.width = 64 ∧ rect.height = 64) →
      ∃ jobs, scanTiles 1 size rects
        (List.replicate rects.length largestTile).flatten
        = .ok (jobs, []) := by
  intro rects
  induction rects with
  | nil => exact fun _ => ⟨[], rfl⟩
  | cons rect rects ih =>
    intro hfull
    obtain ⟨jobs, hjobs⟩ := ih fun x hx =>
      hfull x (List.mem_cons_of_mem _ hx)
    obtain ⟨hw, hh⟩ := hfull rect List.mem_cons_self
    have hget : ∀ s : Bytes, (get : Zrle Bytes) s = .ok (s, s) :=
      fun _ => rfl
    rw [List.length_cons, List.replicate_succ, List.flatten_cons,
      scanTiles, Parser.bind_of_ok (hget _), hw, hh,
      Parser.bind_of_ok (scan_largestTile _),
      Parser.bind_of_ok (hget _), Parser.bind_of_ok hjobs]
    exact ⟨_, rfl⟩

private theorem length_largestTile : largestTile.length = 8320 := by
  have hflatten : ∀ n : Nat,
      ((List.replicate n ([0x80, 0] : Bytes)).flatten).length = 2 * n := by
    intro n
    rw [List.length_flatten, List.map_replicate, List.sum_replicate]
    exact Nat.mul_comm _ _
  unfold largestTile
  rw [List.length_cons, List.length_append, List.length_replicate,
    hflatten]

private theorem length_largestRectangle :
    largestRectangle.length = 4259840 := by
  unfold largestRectangle
  rw [List.length_flatten, List.map_replicate, List.sum_replicate,
    length_largestTile]
  rfl

private theorem largestRectangle_accepted :
    ∃ jobs, buildZrleTileJobs true 2048 1024 1 largestRectangle
      = .ok jobs := by
  have hfull : ∀ rect ∈ tileRects 2048 1024,
      rect.width = 64 ∧ rect.height = 64 := by
    intro rect hrect
    obtain ⟨hx, hy, hw, hh⟩ := mem_tileRects.mp hrect
    rw [mem_tileStarts] at hx hy
    omega
  have hlen : (tileRects 2048 1024).length = 512 := by
    rw [length_tileRects]
  obtain ⟨jobs, hjobs⟩ :=
    scanTiles_largest largestRectangle.length _ hfull
  rw [hlen] at hjobs
  have hscan : scanTiles 1 largestRectangle.length (tileRects 2048 1024)
      largestRectangle = .ok (jobs, []) := hjobs
  have htiles : checkedMultiply ((2048 + 63) / 64) ((1024 + 63) / 64)
      = some 512 := by decide
  refine ⟨jobs, ?_⟩
  unfold buildZrleTileJobs
  rw [htiles]
  dsimp only
  rw [if_neg (by decide), hscan]
  rfl

/-- A rectangle that is accepted and within its bound, and that the
inflater refuses: it fills the bound, which is 65 whole buffers. -/
theorem largestRectangle_refused :
    maxZrleDecodedBytes 2048 1024 rgb332 = some largestRectangle.length
    ∧ (∃ jobs, buildZrleTileJobs true 2048 1024
        rgb332.compactPixelBytes largestRectangle = .ok jobs)
    ∧ Inflates copyInflate CopyPending
    ∧ CopyPending () (largestRectangle ++ flushMarker) largestRectangle
    ∧ inflateChunk copyInflate largestRectangle.length none true
        (some ()) (largestRectangle ++ flushMarker)
      = .error
        "VNC ZRLE decompressed output reaches an unsafe boundary" := by
  have hpending : CopyPending () (largestRectangle ++ flushMarker)
      largestRectangle := .inl rfl
  have hlen := length_largestRectangle
  have hne : largestRectangle ≠ [] := by
    intro h
    rw [h] at hlen
    cases hlen
  refine ⟨by rw [hlen]; decide, ?_, copyInflate_inflates, hpending, ?_⟩
  · exact largestRectangle_accepted
  · have hshort : (largestRectangle ++ flushMarker).length < 2 ^ 32 := by
      rw [List.length_append, hlen]
      decide
    have hcases := inflateChunk_pending copyInflate_inflates none hshort
      (List.suffix_append ..) hpending hne (Nat.le_refl _)
    rcases hcases with ⟨-, -, hnot⟩ | ⟨h, -⟩
    · exact absurd ⟨rfl, by rw [hlen]⟩ hnot
    · exact h

end RemoteDesk.Vnc
