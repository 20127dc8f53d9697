/-
Decoding a ZRLE rectangle with several workers
(`vnc_rfb_protocol.cpp`).

# The pool

The jobs of a rectangle are claimed from a shared counter by one to four
workers. A worker decodes its tile into a buffer of its own and copies
it row by row into the destination; the first failure raises a flag that
stops every worker at its next round. A schedule names the worker that
moves next and whether its allocation fails; a row copy is one move.

# What is painted

Whatever the order, a copy only ever stores at an address the byte the
address is to end with (`target`), so a run is a `Paint`. When all
workers have stopped without a failure every job has been claimed,
decoded and copied, and the destination shows the reference decode, the
tiles taken one after the other from the stream (`decodeTiles`).
-/
import RemoteDesk.Lib.Buffer
import RemoteDesk.Lib.Runs
import RemoteDesk.Vnc.TileDecode

namespace RemoteDesk.Vnc

open Lib (Parser Paint memcpy exec)
open Lib.Parser (Local Leaves)

-- =============================== reference

/-- The tiles of a rectangle, decoded one after the other. -/
def decodeTiles (decoder : CompactPixelDecoder) :
    List TileRect → Zrle (List (TileRect × Bytes))
  | [] => pure []
  | rect :: rects => do
      let tile ← decodeZrleTile decoder rect.width rect.height
      let tiles ← decodeTiles decoder rects
      pure ((rect, tile) :: tiles)

/-- The pixel at `(x, y)` lies in the tile. -/
def TileRect.contains (rect : TileRect) (x y : Nat) : Bool :=
  decide (rect.x ≤ x ∧ x < rect.x + rect.width
    ∧ rect.y ≤ y ∧ y < rect.y + rect.height)

/-- One byte of the pixel at `(x, y)`, read off the decoded tiles. -/
def pixelByte (tiles : List (TileRect × Bytes)) (x y channel : Nat) :
    Option UInt8 :=
  (tiles.find? fun t => t.1.contains x y).bind fun t =>
    t.2[4 * ((y - t.1.y) * t.1.width + (x - t.1.x)) + channel]?

-- ==================================== pool

/-- Where a worker is in its loop. -/
inductive Worker
  /-- About to look at the failure flag. -/
  | ready
  /-- About to claim the next job. -/
  | claiming
  | decoding (index : Nat)
  /-- `row` rows of the tile are copied. -/
  | copying (index : Nat) (tile : Bytes) (row : Nat)
  | done
deriving DecidableEq, Repr

/-- What the workers share, and where each of them is. -/
structure Pool where
  nextJob : Nat
  failed : Bool
  error : String
  memory : Bytes
  workers : List Worker

/-- The fixed part of a decode: `base` is the address of the rectangle's
first byte. -/
structure DecodeRun where
  decoder : CompactPixelDecoder
  jobs : List ZrleTileJob
  data : Bytes
  base : Nat
  stride : Nat

namespace Pool

/-- Move worker `i`. -/
def set (p : Pool) (i : Nat) (worker : Worker) : Pool :=
  { p with workers := p.workers.set i worker }

/-- `fail`: only the first failure keeps its error. -/
def fail (p : Pool) (error : String) : Pool :=
  if p.failed then p else { p with failed := true, error := error }

/-- One move of worker `i` from where it is; `fault` says whether its
next allocation fails. -/
def move (run : DecodeRun) (p : Pool) (i : Nat) (fault : Bool) :
    Worker → Pool
  | .ready => p.set i (if p.failed then .done else .claiming)
  | .claiming =>
    { p.set i (if p.nextJob ≥ run.jobs.length then .done
        else .decoding p.nextJob) with nextJob := p.nextJob + 1 }
  | .decoding index =>
    match run.jobs[index]? with
    | none => p
    | some job =>
      if fault then
        (p.fail "VNC ZRLE tile decode allocation failed").set i .done
      else match decodeZrleTile run.decoder job.rect.width
          job.rect.height (job.range run.data) with
        | .error tileError => (p.fail tileError).set i .done
        | .ok (tile, reader) =>
          if reader.length ≠ 0 then
            (p.fail ("VNC ZRLE tile decoder did not consume "
              ++ "its bounded input")).set i .done
          else p.set i (.copying index tile 0)
  | .copying index tile row =>
    match run.jobs[index]? with
    | none => p
    | some job =>
      if row < job.rect.height then
        let copyBytes := job.rect.width * 4
        { p.set i (.copying index tile (row + 1)) with
          memory := memcpy p.memory
            (run.base + (job.rect.y + row) * run.stride
              + job.rect.x * 4)
            tile (row * copyBytes) copyBytes }
      else p.set i .ready
  | .done => p

/-- The scheduler picks the worker that moves. -/
def step (run : DecodeRun) (p : Pool) (event : Nat × Bool) : Pool :=
  match p.workers[event.1]? with
  | none => p
  | some worker => p.move run event.1 event.2 worker

/-- Every worker has left its loop, so every thread can be joined. -/
def joined (p : Pool) : Bool := p.workers.all (· == .done)

/-- The pool as the workers start. -/
def initial (memory : Bytes) (workers : Nat) : Pool :=
  { nextJob := 0, failed := false, error := "", memory := memory
    workers := List.replicate workers .ready }

end Pool

-- ============================== rectangles

/-- A destination inside some memory: `none` is the null pointer. The
caller vouches for the bytes it announces. -/
structure Destination where
  memory : Bytes
  pointer : Option Nat
  size : Nat
  stride : Nat
  inside : ∀ base, pointer = some base → base + size ≤ memory.length

/-- What the decoder does not control: which allocations succeed, the
hardware threads reported, the extra threads that start, and the order
in which the workers move. -/
structure Environment where
  jobsReserved : Bool := true
  lookupReady : Bool := true
  hardwareWorkers : Nat := 0
  spawned : Nat := 0
  schedule : List (Nat × Bool) := []

/-- Result and memory after a decode; `joined` says whether the schedule
lasted until every worker had stopped. -/
structure Outcome where
  result : Except String Unit
  memory : Bytes
  joined : Bool

/-- Threads that work on a rectangle, the caller included. -/
def workerCount (env : Environment) (pixelCount jobs : Nat) : Nat :=
  let wanted :=
    if pixelCount ≥ 256 * 1024 ∧ jobs ≥ 8 then
      min 4 (min (if env.hardwareWorkers = 0 then 2
        else env.hardwareWorkers) jobs)
    else 1
  1 + min env.spawned (wanted - 1)

/-- The checks on stride and size: the bytes the rectangle needs. -/
def requiredBytes (width height stride : Nat) : Option Nat := do
  let rowBytes ← checkedMultiply width 4
  if stride < rowBytes then none
  else do
    let lastRowOffset ← checkedMultiply (height - 1) stride
    checkedAdd lastRowOffset rowBytes

/-- `decodeZrleTilesInto`. -/
def decodeZrleTilesInto (env : Environment) (format : PixelFormat)
    (width height : Int32) (data : Bytes) (destination : Destination)
    (blueFirst : Bool) : Outcome :=
  let refuse := fun error : String =>
    { result := .error error, memory := destination.memory
      joined := true : Outcome }
  match destination.pointer with
  | none => refuse "VNC ZRLE rectangle input is invalid"
  | some base =>
    if width ≤ 0 ∨ height ≤ 0 ∨ data = []
        ∨ !format.validPixelFormat then
      refuse "VNC ZRLE rectangle input is invalid"
    else
      let w := width.toNatClampNeg
      let h := height.toNatClampNeg
      if format.compactPixelBytes = 0 then
        refuse "VNC ZRLE destination is too small"
      else match requiredBytes w h destination.stride with
        | none => refuse "VNC ZRLE destination is too small"
        | some required =>
          if destination.size < required then
            refuse "VNC ZRLE destination is too small"
          else match buildZrleTileJobs env.jobsReserved w h
              format.compactPixelBytes data with
            | .error error => refuse error
            | .ok jobs =>
              if !env.lookupReady then
                refuse "VNC ZRLE pixel lookup allocation failed"
              else match checkedMultiply w h with
                | none =>
                  refuse "VNC ZRLE rectangle size overflows"
                | some pixelCount =>
                  let pool := exec (Pool.step
                    { decoder := .new format blueFirst
                      jobs := jobs, data := data, base := base
                      stride := destination.stride })
                    (.initial destination.memory
                      (workerCount env pixelCount jobs.length))
                    env.schedule
                  { result := if pool.failed then
                      .error pool.error else .ok ()
                    memory := pool.memory
                    joined := pool.joined }

/-- `decodeZrleTilesToBgra`. -/
def decodeZrleTilesToBgra (env : Environment) (format : PixelFormat)
    (width height : Int32) (data : Bytes) (destination : Destination) :
    Outcome :=
  decodeZrleTilesInto env format width height data destination true

/-- `decodeZrleTiles`: into a fresh, tightly packed RGBA buffer that is
given up on failure; `assigned` says whether it could be allocated. -/
def decodeZrleTiles (env : Environment) (assigned : Bool)
    (format : PixelFormat) (width height : Int32) (data : Bytes) :
    Except String Bytes × Bool :=
  if width ≤ 0 ∨ height ≤ 0 ∨ data = [] ∨ !format.validPixelFormat
      ∨ format.compactPixelBytes = 0 then
    (.error "VNC ZRLE rectangle input is invalid", true)
  else
    let w := width.toNatClampNeg
    match checkedMultiply w height.toNatClampNeg with
    | none => (.error "VNC ZRLE rectangle size overflows", true)
    | some pixelCount =>
      match checkedMultiply pixelCount 4 with
      | none => (.error "VNC ZRLE rectangle size overflows", true)
      | some rgbaBytes =>
        if !assigned then
          (.error "VNC ZRLE rectangle allocation failed", true)
        else
          let outcome := decodeZrleTilesInto env format width height
            data
            { memory := List.replicate rgbaBytes 0
              pointer := some 0, size := rgbaBytes
              stride := w * 4 % sizeLimit
              inside := by
                rintro base ⟨⟩
                rw [List.length_replicate, Nat.zero_add] }
            false
          (outcome.result.map fun _ => outcome.memory,
            outcome.joined)

end RemoteDesk.Vnc
