/-
What a decoded tile is: the bytes of its pixels, as many as it has, in
either output order.

# Length

Every subencoding writes each pixel of the tile once
(`length_decodeZrleTile`), so the tile buffer is filled exactly and
nothing of the tile decoded before it survives.

# Output order

The RGBA and the BGRA decoder read the same bytes and fail alike, and
their tiles differ in the exchange of red and blue
(`decodeZrleTile_exchanged`).
-/
import RemoteDesk.Vnc.TileAgreement

namespace RemoteDesk.Vnc

open Lib (Parser)
open Lib.Parser (Lockstep Local Agree)

variable {format : PixelFormat} {blueFirst : Bool}

-- ================================ locality

private theorem local_readPacked (decoder : CompactPixelDecoder)
    (error : String) : Local (decoder.readPacked error) := by
  unfold CompactPixelDecoder.readPacked
  split
  · exact Local.fail _
  · exact Local.block _ _ _

private theorem local_decodePaletteRun (palette : List UInt32)
    (remaining : Nat) : Local (decodePaletteRun palette remaining) := by
  refine (Local.readOne _).bind fun encodedIndex => ?_
  split
  · exact Local.fail _
  · exact (local_paletteRunLength _ _).bind fun _ => Local.pure _

/-- The decoder reads a tile without looking past it. -/
theorem local_decodeZrleTile (decoder : CompactPixelDecoder)
    (tileWidth tileHeight : Nat) :
    Local (decodeZrleTile decoder tileWidth tileHeight) := by
  have hpixels := fun error count =>
    (local_readPacked decoder error).times count
  refine (Local.readOne _).bind fun subencoding => ?_
  unfold decodeSubencoding
  split
  · exact Local.fail _
  split
  · exact (hpixels _ _).bind fun _ => Local.pure _
  split
  · exact (local_readPacked _ _).bind fun _ => Local.pure _
  split
  · exact (hpixels _ _).bind fun _ =>
      ((Local.block _ _ _).times _).bind fun _ => Local.pure _
  split
  · refine (Local.fill (fun remaining => ?_) _ _).bind
      fun _ => Local.pure _
    exact (local_readPacked _ _).bind fun _ =>
      (local_readRunLength _ _).bind fun _ => Local.pure _
  split
  · exact Local.fail _
  · exact (hpixels _ _).bind fun _ =>
      (Local.fill (local_decodePaletteRun _) _ _).bind
        fun _ => Local.pure _

-- ================================== length

theorem length_flatMap_writePixel (pixels : List UInt32) :
    (pixels.flatMap writePixel).length = 4 * pixels.length := by
  induction pixels with
  | nil => rfl
  | cons pixel pixels ih =>
    rw [List.flatMap_cons, List.length_append, ih, length_writePixel,
      List.length_cons]
    omega

@[simp] theorem length_pixelRun (count : Nat) (pixel : UInt32) :
    (pixelRun count pixel).length = 4 * count := by
  unfold pixelRun
  rw [length_flatMap_writePixel, List.length_replicate]

variable {n : Nat}

private theorem length_flatten_of_sum {runs : List Bytes}
    (h : (runs.map List.length).sum = 4 * n) : runs.flatten.length = 4 * n := by
  rw [List.length_flatten, h]

/-- A decoded row has one pixel a column. -/
private theorem length_decodePackedRow {tileWidth : Nat}
    {palette : List UInt32} {packed row : Bytes}
    (h : decodePackedRow tileWidth palette packed = .ok row) :
    row.length = 4 * tileWidth := by
  unfold decodePackedRow at h
  cases hm : (List.range tileWidth).mapM (decodePackedPixel palette packed)
    with
  | error e => rw [hm] at h; cases h
  | ok pixels =>
    rw [hm] at h
    cases h
    have hmap := Lib.mapM_ok.mp hm
    have hlen := congrArg List.length hmap
    rw [List.length_map, List.length_map, List.length_range] at hlen
    have hfour : ∀ pixel ∈ pixels, pixel.length = 4 := by
      intro pixel hpixel
      have hmem : Except.ok pixel ∈ (List.range tileWidth).map
          (decodePackedPixel palette packed) := by
        rw [hmap]
        exact List.mem_map_of_mem hpixel
      obtain ⟨column, -, hc⟩ := List.mem_map.mp hmem
      unfold decodePackedPixel at hc
      split at hc
      · cases hc
      · cases hc; rfl
    rw [List.length_flatten, List.map_congr_left hfour,
      List.map_const', List.sum_replicate, ← hlen, smul_eq_mul,
      Nat.mul_comm]

private theorem decodePlainRun_length {decoder : CompactPixelDecoder} {k : Nat}
    {s r : Bytes} {run : Bytes} (hk : 1 ≤ k)
    (h : decodePlainRun decoder k s = .ok ((n, run), r)) :
    1 ≤ n ∧ n ≤ k ∧ run.length = 4 * n := by
  obtain ⟨pixel, m, -, hrest⟩ := Parser.bind_ok.mp h
  obtain ⟨runLength, m', hrun, hrest⟩ := Parser.bind_ok.mp hrest
  cases hrest
  obtain ⟨hone, hle, -⟩ := readRunLength_bounds hk hrun
  exact ⟨hone, hle, length_pixelRun _ _⟩

private theorem decodePaletteRun_length {palette : List UInt32} {k : Nat}
    {s r : Bytes} {run : Bytes} (hk : 1 ≤ k)
    (h : decodePaletteRun palette k s = .ok ((n, run), r)) :
    1 ≤ n ∧ n ≤ k ∧ run.length = 4 * n := by
  obtain ⟨encodedIndex, m, -, hrest⟩ := Parser.bind_ok.mp h
  cases hp : palette[(encodedIndex &&& 0x7F).toNat]? with
  | none => rw [hp] at hrest; cases hrest
  | some pixel =>
    rw [hp] at hrest
    obtain ⟨runLength, m', hrun, hrest⟩ := Parser.bind_ok.mp hrest
    cases hrest
    unfold paletteRunLength at hrun
    split at hrun
    · obtain ⟨hone, hle, -⟩ := readRunLength_bounds hk hrun
      exact ⟨hone, hle, length_pixelRun _ _⟩
    · cases hrun
      exact ⟨Nat.le_refl _, hk, length_pixelRun _ _⟩

private theorem length_times {β ε α : Type} {p : Parser β ε α} {s r : List β}
    {as : List α} (h : Parser.times p n s = .ok (as, r)) : as.length = n := by
  induction n generalizing s r as with
  | zero => cases h; rfl
  | succ n ih =>
    obtain ⟨a, m, -, h⟩ := Parser.bind_ok.mp h
    obtain ⟨as', m', has, h⟩ := Parser.bind_ok.mp h
    cases h
    rw [List.length_cons, ih has]

/-- A decoded tile is full. -/
theorem length_decodeZrleTile {decoder : CompactPixelDecoder}
    {tileWidth tileHeight : Nat} {s r tile : Bytes}
    (h : decodeZrleTile decoder tileWidth tileHeight s = .ok (tile, r)) :
    tile.length = 4 * (tileWidth * tileHeight) := by
  obtain ⟨subencoding, reader, -, h⟩ := Parser.bind_ok.mp h
  unfold decodeSubencoding at h
  split at h
  · cases h
  split at h
  · obtain ⟨pixels, m, hpixels, h⟩ := Parser.bind_ok.mp h
    cases h
    rw [length_flatMap_writePixel, length_times hpixels]
  split at h
  · obtain ⟨pixel, m, -, h⟩ := Parser.bind_ok.mp h
    cases h
    exact length_pixelRun _ _
  split at h
  · obtain ⟨palette, m, -, h⟩ := Parser.bind_ok.mp h
    obtain ⟨rows, m', hrows, h⟩ := Parser.bind_ok.mp h
    cases h
    obtain ⟨-, -, hmap⟩ := Parser.times_block_ok.mp hrows
    have hrow : ∀ row ∈ rows, row.length = 4 * tileWidth := by
      intro row hrow
      have hmem : Except.ok row ∈ rows.map (@Except.ok String _) :=
        List.mem_map_of_mem hrow
      rw [← hmap] at hmem
      obtain ⟨i, -, hi⟩ := List.mem_map.mp hmem
      exact length_decodePackedRow hi
    rw [List.length_flatten, List.map_congr_left hrow, List.map_const',
      List.sum_replicate, length_times hrows, smul_eq_mul, Nat.mul_comm,
      Nat.mul_assoc]
  split at h
  · obtain ⟨runs, m, hruns, h⟩ := Parser.bind_ok.mp h
    cases h
    exact length_flatten_of_sum (Parser.fill_sum
      (fun _ _ _ _ _ hk h => decodePlainRun_length hk h)
      (Nat.le_refl _) hruns)
  split at h
  · cases h
  · obtain ⟨palette, m, -, h⟩ := Parser.bind_ok.mp h
    obtain ⟨runs, m', hruns, h⟩ := Parser.bind_ok.mp h
    cases h
    exact length_flatten_of_sum (Parser.fill_sum
      (fun _ _ _ _ _ hk h => decodePaletteRun_length hk h)
      (Nat.le_refl _) hruns)

-- ============================ output order

/-- The byte that holds a channel when red and blue are exchanged. -/
def exchangeChannel (channel : Nat) : Nat :=
  if channel = 0 then 2 else if channel = 2 then 0 else channel

/-- Two output pixels that differ in the exchange of red and blue. -/
def PixelExchanged (p q : UInt32) : Prop :=
  ∀ channel < 4,
    (writePixel q)[channel]? = (writePixel p)[exchangeChannel channel]?

/-- Two runs of pixel bytes that differ in the exchange, pixelwise. -/
def Exchanged (x y : Bytes) : Prop :=
  ∃ ps qs, List.Forall₂ PixelExchanged ps qs
    ∧ x = ps.flatMap writePixel ∧ y = qs.flatMap writePixel

theorem getElem?_flatMap_writePixel {channel : Nat}
    (hchannel : channel < 4) :
    ∀ (pixels : List UInt32) (i : Nat),
      (pixels.flatMap writePixel)[4 * i + channel]?
        = pixels[i]?.bind fun pixel => (writePixel pixel)[channel]? := by
  intro pixels
  induction pixels with
  | nil => intro i; rfl
  | cons pixel pixels ih =>
    intro i
    rw [List.flatMap_cons]
    cases i with
    | zero =>
      rw [Nat.mul_zero, Nat.zero_add,
        List.getElem?_append_left (by rwa [length_writePixel])]
      rfl
    | succ i =>
      rw [List.getElem?_append_right (by rw [length_writePixel]; omega),
        length_writePixel,
        show 4 * (i + 1) + channel - 4 = 4 * i + channel by omega, ih]
      rfl

/-- Exchanged bytes, read channel by channel. -/
theorem Exchanged.getElem? {x y : Bytes} (h : Exchanged x y)
    (i : Nat) {channel : Nat} (hchannel : channel < 4) :
    y[4 * i + channel]? = x[4 * i + exchangeChannel channel]? := by
  obtain ⟨ps, qs, hpq, rfl, rfl⟩ := h
  have hother : exchangeChannel channel < 4 := by
    unfold exchangeChannel
    split
    · omega
    · split <;> omega
  rw [getElem?_flatMap_writePixel hchannel,
    getElem?_flatMap_writePixel hother]
  induction hpq generalizing i with
  | nil => rfl
  | cons hp _ ih =>
    cases i with
    | zero => exact hp channel hchannel
    | succ i => exact ih i

private theorem exchanged_of_pixels {ps qs : List UInt32}
    (h : List.Forall₂ PixelExchanged ps qs) :
    Exchanged (ps.flatMap writePixel) (qs.flatMap writePixel) :=
  ⟨ps, qs, h, rfl, rfl⟩

private theorem exchanged_pixelRun {p q : UInt32}
    (h : PixelExchanged p q) (count : Nat) :
    Exchanged (pixelRun count p) (pixelRun count q) := by
  refine exchanged_of_pixels ?_
  induction count with
  | zero => exact .nil
  | succ count ih => exact .cons h ih

private theorem exchanged_flatten {xs ys : List Bytes}
    (h : List.Forall₂ Exchanged xs ys) :
    Exchanged xs.flatten ys.flatten := by
  induction h with
  | nil => exact ⟨[], [], .nil, rfl, rfl⟩
  | cons hxy _ ih =>
    obtain ⟨ps, qs, hpq, rfl, rfl⟩ := hxy
    obtain ⟨ps', qs', hpq', hxs, hys⟩ := ih
    refine ⟨ps ++ ps', qs ++ qs', List.rel_append hpq hpq', ?_, ?_⟩
    · rw [List.flatten_cons, hxs, List.flatMap_append]
    · rw [List.flatten_cons, hys, List.flatMap_append]

section Exchange

variable (hvalid : format.validPixelFormat = true)
include hvalid

/-- The two orders of one pixel value. -/
theorem pixelExchanged_pack (value : UInt32) :
    PixelExchanged
      (CompactPixelDecoder.pack format false
        (CompactPixelDecoder.components format value))
      (CompactPixelDecoder.pack format true
        (CompactPixelDecoder.components format value)) := by
  intro channel hchannel
  rw [writePixel_pack hvalid, writePixel_pack hvalid, if_pos rfl,
    if_neg Bool.false_ne_true]
  generalize channels format value = c
  obtain rfl | rfl | rfl | rfl :
      channel = 0 ∨ channel = 1 ∨ channel = 2 ∨ channel = 3 := by omega
  all_goals rfl

private theorem lockstep_readPacked (error : String) :
    Lockstep PixelExchanged
      ((CompactPixelDecoder.new format false).readPacked error)
      ((CompactPixelDecoder.new format true).readPacked error) := by
  rw [readPacked_new hvalid, readPacked_new hvalid]
  refine Lockstep.block fun source hsource => .ok ?_
  rw [CompactPixelDecoder.outputPixel_wireValue hvalid _ hsource,
    CompactPixelDecoder.outputPixel_wireValue hvalid _ hsource,
    CompactPixelDecoder.wireValue_blueFirst _ true]
  exact pixelExchanged_pack hvalid _

omit hvalid in
private theorem forall₂_getElem? {ps qs : List UInt32}
    (h : List.Forall₂ PixelExchanged ps qs) (i : Nat) :
    (ps[i]? = none ∧ qs[i]? = none)
      ∨ ∃ p q, ps[i]? = some p ∧ qs[i]? = some q
        ∧ PixelExchanged p q := by
  induction h generalizing i with
  | nil => exact .inl ⟨rfl, rfl⟩
  | cons hp _ ih =>
    cases i with
    | zero => exact .inr ⟨_, _, rfl, rfl, hp⟩
    | succ i => exact ih i

omit hvalid in
private theorem agree_decodePackedRow {ps qs : List UInt32}
    (h : List.Forall₂ PixelExchanged ps qs) (tileWidth : Nat)
    (packed : Bytes) :
    Agree Exchanged (decodePackedRow tileWidth ps packed)
      (decodePackedRow tileWidth qs packed) := by
  have hpixel : ∀ column, Agree Exchanged
      (decodePackedPixel ps packed column)
      (decodePackedPixel qs packed column) := by
    intro column
    unfold decodePackedPixel
    rw [← h.length_eq]
    rcases forall₂_getElem? h (packedIndex ps.length packed column) with
      ⟨hp, hq⟩ | ⟨p, q, hp, hq, hpq⟩
    · rw [hp, hq]
      exact .error
    · rw [hp, hq]
      refine .ok ⟨[p], [q], .cons hpq .nil, ?_, ?_⟩
      · rw [List.flatMap_singleton]
      · rw [List.flatMap_singleton]
  have hrow := Lib.mapM_agree hpixel (List.range tileWidth)
  unfold decodePackedRow
  generalize (List.range tileWidth).mapM (decodePackedPixel ps packed)
    = x at hrow ⊢
  generalize (List.range tileWidth).mapM (decodePackedPixel qs packed)
    = y at hrow ⊢
  cases hrow with
  | error => exact .error
  | ok h => exact .ok (exchanged_flatten h)

omit hvalid in
private theorem lockstep_decodePaletteRun {ps qs : List UInt32}
    (h : List.Forall₂ PixelExchanged ps qs) (remaining : Nat) :
    Lockstep (fun x y => x.1 = y.1 ∧ Exchanged x.2 y.2)
      (decodePaletteRun ps remaining)
      (decodePaletteRun qs remaining) := by
  refine (Lockstep.refl _).bind ?_
  rintro encodedIndex _ rfl
  rcases forall₂_getElem? h (encodedIndex &&& 0x7F).toNat with
    ⟨hp, hq⟩ | ⟨p, q, hp, hq, hpq⟩
  · rw [hp, hq]
    exact Lockstep.fail _
  · rw [hp, hq]
    refine (Lockstep.refl _).bind ?_
    rintro runLength _ rfl
    exact Lockstep.pure ⟨rfl, exchanged_pixelRun hpq _⟩

/-- Both output orders read alike; red and blue are exchanged. -/
theorem decodeZrleTile_exchanged (tileWidth tileHeight : Nat) :
    Lockstep Exchanged
      (decodeZrleTile (.new format false) tileWidth tileHeight)
      (decodeZrleTile (.new format true) tileWidth tileHeight) := by
  have hpixel := lockstep_readPacked hvalid
  have hpixels := fun error count => (hpixel error).times count
  refine (Lockstep.refl _).bind ?_
  rintro subencoding _ rfl
  unfold decodeSubencoding
  split
  · exact Lockstep.fail _
  split
  · exact (hpixels _ _).bind fun ps qs h =>
      Lockstep.pure (exchanged_of_pixels h)
  split
  · exact (hpixel _).bind fun p q h =>
      Lockstep.pure (exchanged_pixelRun h _)
  split
  · refine (hpixels _ _).bind fun ps qs h => ?_
    refine Lockstep.bind (Lockstep.times (Lockstep.block fun b _ =>
      agree_decodePackedRow h tileWidth b) _) fun xs ys hrows => ?_
    exact Lockstep.pure (exchanged_flatten hrows)
  split
  · refine Lockstep.bind (Lockstep.fill (R := Exchanged)
      (fun remaining => ?_) _ _)
      fun xs ys hruns => Lockstep.pure (exchanged_flatten hruns)
    refine (hpixel _).bind fun p q h => ?_
    refine (Lockstep.refl _).bind ?_
    rintro runLength _ rfl
    exact Lockstep.pure ⟨rfl, exchanged_pixelRun h _⟩
  split
  · exact Lockstep.fail _
  · refine (hpixels _ _).bind fun ps qs h => ?_
    exact (Lockstep.fill (lockstep_decodePaletteRun h) _ _).bind
      fun xs ys hruns => Lockstep.pure (exchanged_flatten hruns)

end Exchange

end RemoteDesk.Vnc
