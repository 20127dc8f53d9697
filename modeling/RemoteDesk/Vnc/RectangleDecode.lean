/-
Decoding a ZRLE rectangle gives the reference image.

# From the pool to the picture

A job covers every pixel (`exists_job`), and a finished job shows its
tile, so a pool that stops without a failure shows the reference decode
(`DecodeRun.Shows`). What is left is what stands around the pool: every
refusal leaves the destination as it was, and an accepted rectangle
fits its destination (`decodeZrleTilesInto_cases`).

# Results

`zrle_rectangle_decode`: the frame condition, the reference image, the
independence of the order and of the number of workers, and the two
output orders.
-/
import RemoteDesk.Vnc.PoolInvariant

namespace RemoteDesk.Vnc

open Lib (Parser Paint memcpy exec)
open Lib.Parser (Lockstep Agree)

-- =============================== the image

/-- The address of one byte of the pixel at `(x, y)`. -/
def pixelAddress (base stride x y channel : Nat) : Nat :=
  base + y * stride + x * 4 + channel

/-- Every pixel of the rectangle shows its byte of the tiles. -/
def Shows (memory : Bytes) (base stride width height : Nat)
    (tiles : List (TileRect × Bytes)) : Prop :=
  ∀ x < width, ∀ y < height, ∀ channel < 4,
    ∃ byte, pixelByte tiles x y channel = some byte
      ∧ memory[pixelAddress base stride x y channel]? = some byte

/-- Some tile of the rectangle contains the pixel. -/
theorem exists_tileRect {width height x y : Nat} (hx : x < width)
    (hy : y < height) :
    ∃ rect ∈ tileRects width height, rect.contains x y = true := by
  refine ⟨⟨64 * (x / 64), 64 * (y / 64),
    min 64 (width - 64 * (x / 64)), min 64 (height - 64 * (y / 64))⟩,
    mem_tileRects.mpr ⟨?_, ?_, rfl, rfl⟩, decide_eq_true ?_⟩
  · exact mem_tileStarts.mpr ⟨by dsimp only; omega, by dsimp only; omega⟩
  · exact mem_tileStarts.mpr ⟨by dsimp only; omega, by dsimp only; omega⟩
  · dsimp only
    omega

variable {channel : Nat} {tiles : List (TileRect × Bytes)} {data : Bytes}
variable {format : PixelFormat}

namespace DecodeRun

variable {run : DecodeRun} {width height : Nat}

/-- A finished job shows its pixels. -/
theorem Finished.shows {memory : Bytes} {length : Nat}
    (hfits : run.Fits width height length) {job : ZrleTileJob}
    (hjob : job ∈ run.jobs) (h : run.Finished width height memory job)
    {x y : Nat} (hc : job.rect.contains x y = true) (hchannel : channel < 4) :
    ∃ byte, pixelByte run.decodable x y channel = some byte
      ∧ memory[pixelAddress run.base run.stride x y channel]?
        = some byte := by
  obtain ⟨⟨tile, htile⟩, hrows⟩ := h
  obtain ⟨hx, hx', hy, hy'⟩ := of_decide_eq_true hc
  have hrow : y - job.rect.y < job.rect.height := by omega
  have hk : (x - job.rect.x) * 4 + channel < job.rect.width * 4 := by
    omega
  have haddress : pixelAddress run.base run.stride x y channel
      = run.rowStart job (y - job.rect.y)
        + ((x - job.rect.x) * 4 + channel) := by
    unfold pixelAddress rowStart
    rw [Nat.add_sub_cancel' hy]
    omega
  have hindex : (y - job.rect.y) * (job.rect.width * 4)
        + ((x - job.rect.x) * 4 + channel)
      = 4 * ((y - job.rect.y) * job.rect.width + (x - job.rect.x))
        + channel := by
    ring
  have hinside : 4 * ((y - job.rect.y) * job.rect.width
      + (x - job.rect.x)) + channel < tile.length := by
    have hle : (y - job.rect.y + 1) * job.rect.width
        ≤ job.rect.height * job.rect.width :=
      Nat.mul_le_mul_right _ hrow
    rw [Nat.succ_mul] at hle
    rw [run.length_jobTile htile, Nat.mul_comm job.rect.width]
    omega
  refine ⟨tile[4 * ((y - job.rect.y) * job.rect.width
    + (x - job.rect.x)) + channel], ?_, ?_⟩
  · rw [pixelByte_decodable hfits hjob htile hc,
      List.getElem?_eq_getElem hinside]
  · rw [haddress, hrows _ hrow _ hk,
      target_row hfits hjob htile hrow hk, hindex,
      List.getElem?_eq_getElem hinside]

/-- A pool that stopped without a failure shows the decodable tiles. -/
theorem shows_decodable {memory : Bytes} {p : Pool}
    (hfits : run.Fits width height memory.length)
    (h : p.Inv run width height memory) (hjoined : p.joined = true)
    (hok : p.failed = false) :
    Shows p.memory run.base run.stride width height run.decodable := by
  intro x hx y hy channel hchannel
  obtain ⟨rect, hrect, hc⟩ := exists_tileRect hx hy
  rw [← hfits.rects] at hrect
  obtain ⟨job, hjob, rfl⟩ := List.mem_map.mp hrect
  exact (h.finished hjoined hok hjob).shows hfits hjob hc hchannel

/-- When every job has a tile, the decodable tiles are those tiles. -/
theorem decodable_eq (h : run.jobs.map (fun job => (job.rect, run.jobTile job))
      = tiles.map fun t => (t.1, some t.2)) : run.decodable = tiles := by
  have hread : run.decodable
      = (run.jobs.map fun job => (job.rect, run.jobTile job)).filterMap
        fun t => t.2.map fun tile => (t.1, tile) := by
    unfold decodable
    rw [List.filterMap_map]
    rfl
  rw [hread, h, List.filterMap_map]
  exact List.filterMap_some

/-- Jobs that all have a tile are the pairs of some list of tiles. -/
theorem exists_tiles {jobs : List ZrleTileJob}
    (h : ∀ job ∈ jobs, ∃ tile, run.jobTile job = some tile) :
    ∃ tiles : List (TileRect × Bytes),
      jobs.map (fun job => (job.rect, run.jobTile job))
        = tiles.map fun t => (t.1, some t.2) := by
  induction jobs with
  | nil => exact ⟨[], rfl⟩
  | cons job jobs ih =>
    obtain ⟨tile, htile⟩ := h job List.mem_cons_self
    obtain ⟨tiles, htiles⟩ :=
      ih fun job' hjob => h job' (List.mem_cons_of_mem _ hjob)
    exact ⟨(job.rect, tile) :: tiles, by
      rw [List.map_cons, List.map_cons, htile, htiles]⟩

end DecodeRun

-- ========================= around the pool

/-- Allocations succeed, up to the last one of the schedule. -/
structure Environment.Plentiful (env : Environment) : Prop where
  jobsReserved : env.jobsReserved = true
  lookupReady : env.lookupReady = true
  faultless : ∀ event ∈ env.schedule, event.2 = false

/-- All threads were joined and the decode reported success. -/
structure Outcome.Succeeded (outcome : Outcome) : Prop where
  joined : outcome.joined = true
  result : outcome.result = .ok ()

/-- The arguments pass every check and the stream is cut into `jobs`. -/
structure Prepared (format : PixelFormat) (width height : Nat)
    (data : Bytes) (destination : Destination) (base : Nat)
    (jobs : List ZrleTileJob) : Prop where
  pointer : destination.pointer = some base
  width_pos : 0 < width
  height_pos : 0 < height
  data_ne : data ≠ []
  valid : format.validPixelFormat = true
  required : ∃ required,
    requiredBytes width height destination.stride = some required
      ∧ required ≤ destination.size
  jobs_eq : buildZrleTileJobs true width height format.compactPixelBytes
    data = .ok jobs

/-- The decode that the workers share. -/
def DecodeRun.of (format : PixelFormat) (blueFirst : Bool) (data : Bytes)
    (destination : Destination) (base : Nat) (jobs : List ZrleTileJob) :
    DecodeRun :=
  { decoder := .new format blueFirst, jobs := jobs, data := data
    base := base, stride := destination.stride }

section Prepared

variable {width height : Nat} {destination : Destination} {base : Nat}
    {jobs : List ZrleTileJob}

/-- What the size checks establish. -/
theorem requiredBytes_eq {stride required : Nat} (hwidth : width < 2 ^ 31)
    (h : requiredBytes width height stride = some required) :
    4 * width ≤ stride
      ∧ required = (height - 1) * stride + 4 * width := by
  have hrow : width * 4 < sizeLimit := by
    have : (sizeLimit : Nat) = 2 ^ 64 := rfl
    omega
  unfold requiredBytes at h
  rw [checkedMultiply_of_lt hrow, Option.bind_eq_bind,
    Option.bind_some] at h
  by_cases hstride : stride < width * 4
  · rw [if_pos hstride] at h
    cases h
  · rw [if_neg hstride] at h
    obtain ⟨lastRowOffset, hlast, hadd⟩ := Option.bind_eq_some_iff.mp h
    obtain ⟨rfl, hlt⟩ := checkedMultiply_eq hlast
    obtain ⟨rfl, -⟩ := checkedAdd_eq hlt hadd
    exact ⟨by omega, by rw [Nat.mul_comm 4]⟩

/-- A prepared rectangle fits its destination. -/
theorem Prepared.fits
    (h : Prepared format width height data destination base jobs)
    (hwidth : width < 2 ^ 31) (blueFirst : Bool) :
    (DecodeRun.of format blueFirst data destination base jobs).Fits width
      height destination.memory.length := by
  obtain ⟨required, hrequired, hsize⟩ := h.required
  obtain ⟨hstride, rfl⟩ := requiredBytes_eq hwidth hrequired
  have hinside := destination.inside base h.pointer
  refine ⟨hstride, ?_, (buildZrleTileJobs_scanned h.jobs_eq).2.1⟩
  show base + (height - 1) * destination.stride + 4 * width
    ≤ destination.memory.length
  omega

/-- One destination and one stream are prepared in one way. -/
theorem Prepared.unique {base' : Nat} {jobs' : List ZrleTileJob}
    (h : Prepared format width height data destination base jobs)
    (h' : Prepared format width height data destination base' jobs') :
    base' = base ∧ jobs' = jobs := by
  have hbase := h'.pointer
  rw [h.pointer] at hbase
  have hjobs := h'.jobs_eq
  rw [h.jobs_eq] at hjobs
  exact ⟨(Option.some.inj hbase).symm, (Except.ok.inj hjobs).symm⟩

/-- The reference ends where the scanner ended, with the decodable
tiles, when every job has a tile; otherwise there is no reference. -/
theorem Prepared.reference
    (h : Prepared format width height data destination base jobs)
    (blueFirst : Bool) {r : Bytes} :
    decodeTiles (.new format blueFirst) (tileRects width height) data
        = .ok (tiles, r)
      ↔ r = [] ∧ jobs.map (fun job => (job.rect,
          (DecodeRun.of format blueFirst data destination base
            jobs).jobTile job))
        = tiles.map fun t => (t.1, some t.2) := by
  have hdecoder : (DecodeRun.of format blueFirst data destination base
      jobs).decoder = .new format blueFirst := rfl
  exact decodeTiles_iff h.valid hdecoder (Nat.zero_le _)
    (fun _ => tileSize_of_mem) (buildZrleTileJobs_scanned h.jobs_eq).1

end Prepared

/-- The pool a prepared decode ends with. -/
def DecodeRun.pool (run : DecodeRun) (env : Environment)
    (memory : Bytes) (pixelCount : Nat) : Pool :=
  exec (Pool.step run)
    (.initial memory (workerCount env pixelCount run.jobs.length))
    env.schedule

/-- A decode is refused before it starts, with the destination as it
was, or it is prepared and the pool decides. -/
theorem decodeZrleTilesInto_cases (env : Environment)
    (format : PixelFormat) (width height : Int32) (data : Bytes)
    (destination : Destination) (blueFirst : Bool) :
    ((∃ error, decodeZrleTilesInto env format width height data
        destination blueFirst
        = { result := .error error, memory := destination.memory
            joined := true })
      ∧ (env.Plentiful → ∀ base jobs, ¬ Prepared format
        width.toNatClampNeg height.toNatClampNeg data destination base
        jobs))
    ∨ ∃ base jobs pixelCount, Prepared format width.toNatClampNeg
        height.toNatClampNeg data destination base jobs
      ∧ decodeZrleTilesInto env format width height data destination
          blueFirst
        = let pool := (DecodeRun.of format blueFirst data destination
            base jobs).pool env destination.memory pixelCount
          { result := if pool.failed then .error pool.error else .ok ()
            memory := pool.memory, joined := pool.joined } := by
  have hw := width.toNatClampNeg_lt
  have hh := height.toNatClampNeg_lt
  unfold decodeZrleTilesInto
  dsimp only
  cases hpointer : destination.pointer with
  | none =>
    refine .inl ⟨⟨_, rfl⟩, fun _ base jobs h => ?_⟩
    have := h.pointer
    rw [hpointer] at this
    cases this
  | some base =>
  dsimp only
  by_cases hinput : width ≤ 0 ∨ height ≤ 0 ∨ data = []
      ∨ (!format.validPixelFormat) = true
  · rw [if_pos hinput]
    refine .inl ⟨⟨_, rfl⟩, fun _ base jobs h => ?_⟩
    have hwidth := (Int32.toNatClampNeg_pos_iff width).mp h.width_pos
    have hheight := (Int32.toNatClampNeg_pos_iff height).mp h.height_pos
    rcases hinput with hwidth' | hheight' | hdata | hvalid
    · exact Int32.not_le.mpr hwidth hwidth'
    · exact Int32.not_le.mpr hheight hheight'
    · exact h.data_ne hdata
    · rw [h.valid] at hvalid
      cases hvalid
  rw [if_neg hinput]
  obtain ⟨hwidth, hheight, hdata, hvalid⟩ :
      0 < width.toNatClampNeg ∧ 0 < height.toNatClampNeg ∧ data ≠ []
        ∧ format.validPixelFormat = true := by
    rw [not_or, not_or, not_or, Int32.not_le, Int32.not_le] at hinput
    exact ⟨(Int32.toNatClampNeg_pos_iff width).mpr hinput.1,
      (Int32.toNatClampNeg_pos_iff height).mpr hinput.2.1,
      hinput.2.2.1, by simpa using hinput.2.2.2⟩
  have hcompact := format.compactPixelBytes_bounds hvalid
  rw [if_neg (by omega)]
  cases hrequired : requiredBytes width.toNatClampNeg
      height.toNatClampNeg destination.stride with
  | none =>
    refine .inl ⟨⟨_, rfl⟩, fun _ base jobs h => ?_⟩
    obtain ⟨required, h, -⟩ := h.required
    rw [hrequired] at h
    cases h
  | some required =>
  dsimp only
  by_cases hsize : destination.size < required
  · rw [if_pos hsize]
    refine .inl ⟨⟨_, rfl⟩, fun _ base jobs h => ?_⟩
    obtain ⟨required', h, hle⟩ := h.required
    rw [hrequired] at h
    cases h
    omega
  rw [if_neg hsize]
  cases hjobs : buildZrleTileJobs env.jobsReserved width.toNatClampNeg
      height.toNatClampNeg format.compactPixelBytes data with
  | error error =>
    refine .inl ⟨⟨_, rfl⟩, fun hplenty base jobs h => ?_⟩
    rw [hplenty.jobsReserved, h.jobs_eq] at hjobs
    cases hjobs
  | ok jobs =>
  dsimp only
  by_cases hlookup : (!env.lookupReady) = true
  · rw [if_pos hlookup]
    refine .inl ⟨⟨_, rfl⟩, fun hplenty _ _ _ => ?_⟩
    rw [hplenty.lookupReady] at hlookup
    cases hlookup
  rw [if_neg hlookup]
  have hpixels : width.toNatClampNeg * height.toNatClampNeg
      < sizeLimit :=
    lt_of_lt_of_le (Nat.mul_lt_mul'' hw hh) (by decide)
  rw [checkedMultiply_of_lt hpixels]
  refine .inr ⟨base, jobs, width.toNatClampNeg * height.toNatClampNeg,
    ⟨hpointer, hwidth, hheight, hdata, hvalid,
      ⟨required, hrequired, by omega⟩, ?_⟩, rfl⟩
  cases hreserved : env.jobsReserved with
  | true => rwa [hreserved] at hjobs
  | false =>
    rw [hreserved] at hjobs
    unfold buildZrleTileJobs at hjobs
    split at hjobs
    · cases hjobs
    · cases hjobs

-- ================================ outcomes

/-- The pool of a prepared decode keeps its invariant. -/
theorem Prepared.pool_inv {width height : Nat} {destination : Destination}
    {base : Nat} {jobs : List ZrleTileJob}
    (h : Prepared format width height data destination base jobs)
    (hwidth : width < 2 ^ 31) (env : Environment) (blueFirst : Bool)
    (pixelCount : Nat) :
    ((DecodeRun.of format blueFirst data destination base jobs).pool env
      destination.memory pixelCount).Inv
      (.of format blueFirst data destination base jobs) width height
      destination.memory := by
  refine Pool.Inv.reached (h.fits hwidth blueFirst) ?_ _
  exact Nat.add_pos_left Nat.one_pos _

/-- An address outside the pixels has no target. -/
theorem DecodeRun.target_none {run : DecodeRun} {width height a : Nat}
    (h : ∀ x < width, ∀ y < height, ∀ channel < 4,
      a ≠ pixelAddress run.base run.stride x y channel) :
    run.target width height a = none := by
  unfold target
  by_cases hin : run.base ≤ a ∧ (a - run.base) / run.stride < height
      ∧ (a - run.base) % run.stride < 4 * width
  · obtain ⟨hbase, hy, hx⟩ := hin
    have hsplit := Nat.div_add_mod (a - run.base) run.stride
    rw [Nat.mul_comm] at hsplit
    refine absurd ?_ (h ((a - run.base) % run.stride / 4) (by omega)
      ((a - run.base) / run.stride) hy
      ((a - run.base) % run.stride % 4) (by omega))
    unfold pixelAddress
    omega
  · rw [if_neg hin]

section Outcome

variable (env : Environment) (format : PixelFormat) (width height : Int32)
  (data : Bytes) (destination : Destination) (blueFirst : Bool)

/-- Success or failure, in whatever order: only the pixels change. -/
theorem decodeZrleTilesInto_frame :
    (decodeZrleTilesInto env format width height data destination
        blueFirst).memory.length = destination.memory.length
      ∧ ∀ a, (∀ base, destination.pointer = some base →
          ∀ x < width.toNatClampNeg, ∀ y < height.toNatClampNeg,
            ∀ channel < 4,
              a ≠ pixelAddress base destination.stride x y channel) →
        (decodeZrleTilesInto env format width height data destination
          blueFirst).memory[a]? = destination.memory[a]? := by
  rcases decodeZrleTilesInto_cases env format width height data
    destination blueFirst with ⟨⟨error, h⟩, -⟩ |
    ⟨base, jobs, pixelCount, hprepared, h⟩
  · rw [h]
    exact ⟨rfl, fun _ _ => rfl⟩
  · rw [h]
    have hpaint := (hprepared.pool_inv width.toNatClampNeg_lt env
      blueFirst pixelCount).paint
    exact ⟨hpaint.1, fun a ha => hpaint.frame
      (DecodeRun.target_none (ha base hprepared.pointer))⟩

variable {env format width height data destination blueFirst}

/-- A decode that succeeds shows the reference, which uses up the
data. -/
theorem Outcome.Succeeded.shows
    (h : (decodeZrleTilesInto env format width height data destination
      blueFirst).Succeeded) :
    ∃ base jobs tiles, Prepared format width.toNatClampNeg
        height.toNatClampNeg data destination base jobs
      ∧ decodeTiles (.new format blueFirst) (tileRects
          width.toNatClampNeg height.toNatClampNeg) data
        = .ok (tiles, [])
      ∧ Shows (decodeZrleTilesInto env format width height data
          destination blueFirst).memory base destination.stride
        width.toNatClampNeg height.toNatClampNeg tiles := by
  rcases decodeZrleTilesInto_cases env format width height data
    destination blueFirst with ⟨⟨error, hout⟩, -⟩ |
    ⟨base, jobs, pixelCount, hprepared, hout⟩
  · have := h.result
    rw [hout] at this
    cases this
  · have hjoined := h.joined
    have hresult := h.result
    rw [hout] at hjoined hresult ⊢
    have hfits := hprepared.fits width.toNatClampNeg_lt blueFirst
    have hinv := hprepared.pool_inv width.toNatClampNeg_lt env
      blueFirst pixelCount
    dsimp only at hjoined hresult ⊢
    generalize hp : (DecodeRun.of format blueFirst data destination base
      jobs).pool env destination.memory pixelCount = pool at *
    have hok : pool.failed = false := by
      cases hf : pool.failed with
      | false => rfl
      | true =>
        rw [if_pos hf] at hresult
        cases hresult
    obtain ⟨tiles, htiles⟩ := DecodeRun.exists_tiles
      fun job hjob => (hinv.finished hjoined hok hjob).1
    refine ⟨base, jobs, tiles, hprepared,
      (hprepared.reference blueFirst).mpr ⟨rfl, htiles⟩, ?_⟩
    have hshows := DecodeRun.shows_decodable hfits hinv hjoined hok
    rwa [DecodeRun.decodable_eq htiles] at hshows

/-- With enough memory, success depends on the arguments alone. -/
theorem decodeZrleTilesInto_ok_iff (hplenty : env.Plentiful)
    (hjoined : (decodeZrleTilesInto env format width height data
      destination blueFirst).joined = true) :
    (decodeZrleTilesInto env format width height data destination
        blueFirst).result = .ok ()
      ↔ ∃ base jobs tiles, Prepared format width.toNatClampNeg
          height.toNatClampNeg data destination base jobs
        ∧ decodeTiles (.new format blueFirst) (tileRects
            width.toNatClampNeg height.toNatClampNeg) data
          = .ok (tiles, []) := by
  constructor
  · intro hresult
    obtain ⟨base, jobs, tiles, hprepared, htiles, -⟩ :=
      Outcome.Succeeded.shows ⟨hjoined, hresult⟩
    exact ⟨base, jobs, tiles, hprepared, htiles⟩
  · rintro ⟨base, jobs, tiles, hprepared, htiles⟩
    rcases decodeZrleTilesInto_cases env format width height data
      destination blueFirst with ⟨-, hnone⟩ |
      ⟨base', jobs', pixelCount, hprepared', hout⟩
    · exact absurd hprepared (hnone hplenty base jobs)
    · obtain ⟨rfl, rfl⟩ := hprepared.unique hprepared'
      obtain ⟨-, hmap⟩ := (hprepared.reference blueFirst).mp htiles
      rw [hout]
      dsimp only
      rw [if_neg]
      intro hfailed
      obtain ⟨job, hjob, hbad⟩ :=
        Pool.Blames.reached _ _ _ hplenty.faultless hfailed
      have hmem := List.mem_map_of_mem hjob (f := fun job =>
        (job.rect, (DecodeRun.of format blueFirst data destination base'
          jobs').jobTile job))
      rw [show (DecodeRun.of format blueFirst data destination base'
        jobs').jobs = jobs' from rfl, hmap] at hmem
      obtain ⟨t, -, ht⟩ := List.mem_map.mp hmem
      have := (Prod.mk.inj ht).2
      rw [hbad] at this
      cases this

end Outcome

-- =========================== output orders

/-- The same tiles, with red and blue exchanged. -/
def TilesExchanged : List (TileRect × Bytes) → List (TileRect × Bytes) →
    Prop :=
  List.Forall₂ fun t u => t.1 = u.1 ∧ Exchanged t.2 u.2

theorem decodeTiles_exchanged (hvalid : format.validPixelFormat = true)
    (rects : List TileRect) :
    Lockstep TilesExchanged (decodeTiles (.new format false) rects)
      (decodeTiles (.new format true) rects) := by
  induction rects with
  | nil => exact Lockstep.pure .nil
  | cons rect rects ih =>
    refine (decodeZrleTile_exchanged hvalid _ _).bind
      fun tile tile' htile => ?_
    exact ih.bind fun tiles tiles' htiles =>
      Lockstep.pure (.cons ⟨rfl, htile⟩ htiles)

/-- Exchanged tiles, read pixel by pixel. -/
theorem pixelByte_exchanged {tiles' : List (TileRect × Bytes)}
    (h : TilesExchanged tiles tiles') (x y : Nat) (hchannel : channel < 4) :
    pixelByte tiles' x y channel
      = pixelByte tiles x y (exchangeChannel channel) := by
  unfold pixelByte
  induction h with
  | nil => rfl
  | @cons t u _ _ htu _ ih =>
    obtain ⟨hrect, hbytes⟩ := htu
    rw [List.find?_cons, List.find?_cons, ← hrect]
    cases hc : t.1.contains x y with
    | false => exact ih
    | true =>
      dsimp only [Option.bind_some]
      rw [← hrect]
      exact hbytes.getElem? _ hchannel

theorem exchangeChannel_lt (h : channel < 4) : exchangeChannel channel < 4 := by
  unfold exchangeChannel
  split
  · omega
  · split <;> omega

/-- One order has a reference when the other has. -/
theorem decodeTiles_orders (hvalid : format.validPixelFormat = true)
    (blueFirst : Bool) {rects : List TileRect} {r : Bytes}
    (h : decodeTiles (.new format blueFirst) rects data
      = .ok (tiles, r)) (blueFirst' : Bool) :
    ∃ tiles', decodeTiles (.new format blueFirst') rects data
      = .ok (tiles', r) := by
  have hboth := decodeTiles_exchanged hvalid rects data
  cases blueFirst with
  | false =>
    cases blueFirst' with
    | false => exact ⟨tiles, h⟩
    | true =>
      rw [h] at hboth
      generalize decodeTiles (.new format true) rects data = y
        at hboth ⊢
      cases hboth
      exact ⟨_, rfl⟩
  | true =>
    cases blueFirst' with
    | true => exact ⟨tiles, h⟩
    | false =>
      rw [h] at hboth
      generalize decodeTiles (.new format false) rects data = y
        at hboth ⊢
      cases hboth
      exact ⟨_, rfl⟩

/-- The wrapper hands out what the rectangle decode painted. -/
theorem decodeZrleTiles_ok {env : Environment} {assigned : Bool}
    {width height : Int32} {rgba : Bytes}
    (h : decodeZrleTiles env assigned format width height data
      = (.ok rgba, true)) :
    ∃ destination : Destination, destination.pointer = some 0
      ∧ destination.stride = width.toNatClampNeg * 4
      ∧ (decodeZrleTilesInto env format width height data destination
        false).Succeeded
      ∧ rgba = (decodeZrleTilesInto env format width height data
        destination false).memory := by
  have hw := width.toNatClampNeg_lt
  unfold decodeZrleTiles at h
  dsimp only at h
  split at h
  · cases h
  split at h
  · cases h
  split at h
  · cases h
  split at h
  · cases h
  · rename_i rgbaBytes _ _
    refine ⟨{ memory := List.replicate rgbaBytes 0
              pointer := some 0, size := rgbaBytes
              stride := width.toNatClampNeg * 4 % sizeLimit
              inside := by
                rintro base ⟨⟩
                rw [List.length_replicate, Nat.zero_add] },
      rfl, ?_, ?_⟩
    · exact Nat.mod_eq_of_lt
        (lt_trans (Nat.mul_lt_mul_of_pos_right hw (by decide))
          (by decide))
    · obtain ⟨hresult, hjoined⟩ := Prod.mk.inj h
      generalize decodeZrleTilesInto env format width height data _ false
        = out at hresult hjoined ⊢
      cases hr : out.result with
      | error error =>
        rw [hr] at hresult
        cases hresult
      | ok u =>
        rw [hr] at hresult
        cases hresult
        exact ⟨⟨hjoined, hr⟩, rfl⟩

-- ==================================== main

/-- Two decodes of one order leave the same memory. -/
theorem Outcome.Succeeded.memory_eq {env env' : Environment}
    {width height : Int32} {destination : Destination} {blueFirst : Bool}
    (h : (decodeZrleTilesInto env format width height data destination
      blueFirst).Succeeded)
    (h' : (decodeZrleTilesInto env' format width height data destination
      blueFirst).Succeeded) :
    (decodeZrleTilesInto env' format width height data destination
        blueFirst).memory
      = (decodeZrleTilesInto env format width height data destination
        blueFirst).memory := by
  obtain ⟨base, jobs, tiles, hprepared, htiles, hshows⟩ := h.shows
  obtain ⟨base', jobs', tiles', hprepared', htiles', hshows'⟩ := h'.shows
  obtain ⟨rfl, rfl⟩ := hprepared.unique hprepared'
  rw [htiles] at htiles'
  cases htiles'
  refine List.ext_getElem? fun a => ?_
  by_cases hin : ∃ x < width.toNatClampNeg, ∃ y < height.toNatClampNeg,
      ∃ channel < 4,
        a = pixelAddress base' destination.stride x y channel
  · obtain ⟨x, hx, y, hy, channel, hchannel, rfl⟩ := hin
    obtain ⟨byte, hbyte, hmem⟩ := hshows x hx y hy channel hchannel
    obtain ⟨byte', hbyte', hmem'⟩ := hshows' x hx y hy channel hchannel
    rw [hbyte] at hbyte'
    cases hbyte'
    rw [hmem, hmem']
  · have hout : ∀ base, destination.pointer = some base →
        ∀ x < width.toNatClampNeg, ∀ y < height.toNatClampNeg,
          ∀ channel < 4,
            a ≠ pixelAddress base destination.stride x y channel := by
      intro base hpointer x hx y hy channel hchannel ha
      rw [hprepared.pointer] at hpointer
      cases hpointer
      exact hin ⟨x, hx, y, hy, channel, hchannel, ha⟩
    rw [(decodeZrleTilesInto_frame env' format width height data
        destination blueFirst).2 a hout,
      (decodeZrleTilesInto_frame env format width height data
        destination blueFirst).2 a hout]

/-- Whatever the schedule, the failures and the threads that start: only
the rectangle's pixels change, and a decode that succeeds has written
the reference decode of the whole stream. So its memory does not depend
on the order or on the number of workers, nor, while allocations
succeed, does its success, not even on the output order; and the RGBA
buffer is the BGRA rectangle with red and blue exchanged. -/
theorem zrle_rectangle_decode (format : PixelFormat)
    (width height : Int32) (data : Bytes) (destination : Destination) :
    (∀ env blueFirst,
      (decodeZrleTilesInto env format width height data destination
          blueFirst).memory.length = destination.memory.length
        ∧ ∀ a, (∀ base, destination.pointer = some base →
            ∀ x < width.toNatClampNeg, ∀ y < height.toNatClampNeg,
              ∀ channel < 4,
                a ≠ pixelAddress base destination.stride x y channel) →
          (decodeZrleTilesInto env format width height data destination
            blueFirst).memory[a]? = destination.memory[a]?)
    ∧ (∀ env blueFirst,
      (decodeZrleTilesInto env format width height data destination
        blueFirst).Succeeded →
      ∃ base tiles, destination.pointer = some base
        ∧ decodeTiles (.new format blueFirst) (tileRects
            width.toNatClampNeg height.toNatClampNeg) data
          = .ok (tiles, [])
        ∧ Shows (decodeZrleTilesInto env format width height data
            destination blueFirst).memory base destination.stride
          width.toNatClampNeg height.toNatClampNeg tiles)
    ∧ (∀ env env' blueFirst,
      (decodeZrleTilesInto env format width height data destination
        blueFirst).Succeeded →
      (decodeZrleTilesInto env' format width height data destination
        blueFirst).Succeeded →
      (decodeZrleTilesInto env' format width height data destination
          blueFirst).memory
        = (decodeZrleTilesInto env format width height data destination
          blueFirst).memory)
    ∧ (∀ env env' blueFirst blueFirst', env.Plentiful →
      env'.Plentiful →
      (decodeZrleTilesInto env format width height data destination
        blueFirst).joined = true →
      (decodeZrleTilesInto env' format width height data destination
        blueFirst').joined = true →
      ((decodeZrleTilesInto env format width height data destination
          blueFirst).result = .ok ()
        ↔ (decodeZrleTilesInto env' format width height data destination
          blueFirst').result = .ok ()))
    ∧ ∀ env env' assigned rgba,
      decodeZrleTiles env assigned format width height data
        = (.ok rgba, true) →
      (decodeZrleTilesToBgra env' format width height data
        destination).Succeeded →
      ∃ base, destination.pointer = some base
        ∧ ∀ x < width.toNatClampNeg, ∀ y < height.toNatClampNeg,
          ∀ channel < 4, ∃ byte,
            (decodeZrleTilesToBgra env' format width height data
                destination).memory[pixelAddress base
                  destination.stride x y channel]? = some byte
              ∧ rgba[pixelAddress 0 (width.toNatClampNeg * 4) x y
                (exchangeChannel channel)]? = some byte := by
  refine ⟨fun env blueFirst => decodeZrleTilesInto_frame env format
    width height data destination blueFirst, ?_,
    fun env env' blueFirst h h' => h.memory_eq h', ?_, ?_⟩
  · intro env blueFirst h
    obtain ⟨base, jobs, tiles, hprepared, htiles, hshows⟩ := h.shows
    exact ⟨base, tiles, hprepared.pointer, htiles, hshows⟩
  · intro env env' blueFirst blueFirst' hplenty hplenty' hjoined hjoined'
    rw [decodeZrleTilesInto_ok_iff hplenty hjoined,
      decodeZrleTilesInto_ok_iff hplenty' hjoined']
    constructor
    · rintro ⟨base, jobs, tiles, hprepared, htiles⟩
      obtain ⟨tiles', htiles'⟩ := decodeTiles_orders hprepared.valid
        blueFirst htiles blueFirst'
      exact ⟨base, jobs, tiles', hprepared, htiles'⟩
    · rintro ⟨base, jobs, tiles, hprepared, htiles⟩
      obtain ⟨tiles', htiles'⟩ := decodeTiles_orders hprepared.valid
        blueFirst' htiles blueFirst
      exact ⟨base, jobs, tiles', hprepared, htiles'⟩
  · intro env env' assigned rgba hrgba hbgra
    obtain ⟨destination', hpointer', hstride', hsucceeded, rfl⟩ :=
      decodeZrleTiles_ok hrgba
    obtain ⟨base, jobs, tiles, hprepared, htiles, hshows⟩ :=
      Outcome.Succeeded.shows hbgra
    obtain ⟨base', jobs', tiles', hprepared', htiles', hshows'⟩ :=
      hsucceeded.shows
    have hbase := hprepared'.pointer
    rw [hpointer'] at hbase
    cases hbase
    have hexchanged : TilesExchanged tiles' tiles := by
      have hboth := decodeTiles_exchanged hprepared.valid (tileRects
        width.toNatClampNeg height.toNatClampNeg) data
      rw [htiles', htiles] at hboth
      cases hboth with
      | ok h => exact h
    refine ⟨base, hprepared.pointer, fun x hx y hy channel hchannel => ?_⟩
    obtain ⟨byte, hbyte, hmem⟩ := hshows x hx y hy channel hchannel
    obtain ⟨byte', hbyte', hmem'⟩ := hshows' x hx y hy
      (exchangeChannel channel) (exchangeChannel_lt hchannel)
    rw [pixelByte_exchanged hexchanged x y hchannel, hbyte'] at hbyte
    cases hbyte
    rw [hstride'] at hmem'
    exact ⟨_, hmem, hmem'⟩

/-- One solid pixel, decoded by the caller alone into the middle of a
buffer. -/
theorem zrle_rectangle_decode_pixel :
    ∃ tiles, decodeTiles (.new {} false) [⟨0, 0, 1, 1⟩] [1, 3, 2, 1]
        = .ok (tiles, [])
      ∧ Shows [9, 9, 1, 2, 3, 255, 9] 2 4 1 1 tiles := by
  obtain ⟨base, tiles, hbase, htiles, hshows⟩ :=
    (zrle_rectangle_decode {} 1 1 [1, 3, 2, 1]
      { memory := [9, 9, 9, 9, 9, 9, 9], pointer := some 2, size := 4
        stride := 4
        inside := by rintro base ⟨⟩; decide }).2.1
      { schedule := List.replicate 8 (0, false) } false
      ⟨by decide, by decide⟩
  cases hbase
  exact ⟨tiles, htiles, hshows⟩

end RemoteDesk.Vnc
