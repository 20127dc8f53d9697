/-
The cache of cursor shapes (rustdesk_ffi/src/cursor_state.rs).

A shape that the peer sends is decoded once, kept in its compressed form under
its id, and selected. The order of the ids runs from the least recently used
to the selected one, and a shape that makes the cache too heavy pushes others
out from the front of it. `decompress` reads so many bytes off a compressed
stream, and fails where the decoder does.
-/
import RemoteDesk.Lib.Runs
import RemoteDesk.Lib.Weights

namespace RemoteDesk.RustDesk

open Lib

-- =================================== types

def MAX_CURSOR_DIMENSION : Int := 384
def MAX_CURSOR_CACHE_BYTES : Nat := 32 * 1024 * 1024
def MAX_EVICTION_HISTORY : Nat := 64

/-- The largest `usize`. -/
def usizeMax : Nat := 2 ^ 64 - 1

abbrev Decompress := List UInt8 → Nat → Option (List UInt8)

/-- The message of the peer. -/
structure CursorData where
  id : Nat
  hotx : Int
  hoty : Int
  width : Int
  height : Int
  colors : List UInt8
deriving DecidableEq, Repr

structure CursorShape where
  id : Nat
  hotX : Int
  hotY : Int
  width : Int
  height : Int
  rgba : List UInt8
deriving DecidableEq, Repr

structure CursorCacheEntry where
  id : Nat
  hotX : Int
  hotY : Int
  width : Int
  height : Int
  compressedColors : List UInt8
deriving DecidableEq, Repr

def expectedLen (width height : Int) : Nat := width.toNat * height.toNat * 4

def CursorCacheEntry.expectedRgbaLen (entry : CursorCacheEntry) : Nat :=
  expectedLen entry.width entry.height

def CursorCacheEntry.bytes (entry : CursorCacheEntry) : Nat :=
  entry.compressedColors.length

inductive CursorCacheMissReason where
  | PendingOrUnknown
  | BudgetEvicted
  | CorruptCachedShape
deriving DecidableEq, Repr

inductive CursorIdResult where
  | Selected (shape : CursorShape)
  | CacheMiss (id : Nat) (reason : CursorCacheMissReason)
deriving DecidableEq, Repr

structure CursorState where
  shapes : AList fun _ : Nat => CursorCacheEntry := ∅
  shapeOrder : List Nat := []
  cachedBytes : Nat := 0
  cacheBudgetBytes : Nat
  evictedIds : List Nat := []
  selectedId : Option Nat := none
  selectedShape : Option CursorShape := none
  position : Option (Int × Int) := none

-- ================================== policy

def decodeColors (decompress : Decompress) (compressedColors : List UInt8)
    (expectedLen : Nat) : Option (List UInt8) :=
  match decompress compressedColors (expectedLen + 1) with
  | some rgba => if rgba.length ≠ expectedLen then none else some rgba
  | none => none

/-- The shape that an entry decodes to. -/
def CursorCacheEntry.shape (entry : CursorCacheEntry) (rgba : List UInt8) :
    CursorShape where
  id := entry.id
  hotX := entry.hotX
  hotY := entry.hotY
  width := entry.width
  height := entry.height
  rgba

/-- The entry under which a message is kept. -/
def CursorData.entry (data : CursorData) : CursorCacheEntry where
  id := data.id
  hotX := data.hotx
  hotY := data.hoty
  width := data.width
  height := data.height
  compressedColors := data.colors

namespace CursorState

def withCacheBudget (cacheBudgetBytes : Nat) : CursorState :=
  { cacheBudgetBytes }

def new : CursorState := withCacheBudget MAX_CURSOR_CACHE_BYTES

def removeFromOrder (state : CursorState) (id : Nat) : CursorState :=
  { state with shapeOrder := state.shapeOrder.erase id }

def touchShape (state : CursorState) (id : Nat) : CursorState :=
  let state := state.removeFromOrder id
  { state with shapeOrder := state.shapeOrder ++ [id] }

def removeCachedEntry (state : CursorState) (id : Nat) : CursorState :=
  match state.shapes.lookup id with
  | some entry =>
    { state with
      shapes := state.shapes.erase id
      cachedBytes := state.cachedBytes - entry.bytes }.removeFromOrder id
  | none => state

def removeEvictionHistory (state : CursorState) (id : Nat) : CursorState :=
  { state with evictedIds := state.evictedIds.erase id }

def recordEviction (state : CursorState) (id : Nat) : CursorState :=
  let state := state.removeEvictionHistory id
  let evictedIds := state.evictedIds ++ [id]
  { state with
    evictedIds := evictedIds.drop (evictedIds.length - MAX_EVICTION_HISTORY) }

/-- The loop of `trimCache`, over the ids that are still in the order. -/
def trimFrom : List Nat → CursorState → CursorState
  | [], state => { state with shapeOrder := [] }
  | id :: rest, state =>
    if state.cachedBytes ≤ state.cacheBudgetBytes then
      { state with shapeOrder := id :: rest }
    else if state.selectedId = some id then
      { state with shapeOrder := rest ++ [id] }
    else
      match state.shapes.lookup id with
      | some evicted =>
        trimFrom rest
          ({ state with
            shapes := state.shapes.erase id
            cachedBytes :=
              state.cachedBytes - evicted.bytes }.recordEviction id)
      | none => trimFrom rest state

def trimCache (state : CursorState) : CursorState :=
  trimFrom state.shapeOrder state

/-- A message whose dimensions and hot spot are those of a cursor. -/
def acceptable (data : CursorData) : Bool :=
  !(data.width ≤ 0 || data.height ≤ 0 || data.width > MAX_CURSOR_DIMENSION
    || data.height > MAX_CURSOR_DIMENSION || data.hotx < 0 || data.hoty < 0
    || data.hotx ≥ data.width || data.hoty ≥ data.height)

/-- The decoded shape is cached at the back of the order, and selected. -/
def adopt (state : CursorState) (entry : CursorCacheEntry)
    (rgba : List UInt8) : CursorState :=
  let id := entry.id
  let state := state.removeCachedEntry id
  let state :=
    { state with
      cachedBytes := min (state.cachedBytes + entry.bytes) usizeMax
      shapes := state.shapes.insert id entry
      shapeOrder := state.shapeOrder ++ [id]
      selectedId := some id
      selectedShape := some (entry.shape rgba) }
  (state.removeEvictionHistory id).trimCache

def applyData (decompress : Decompress) (state : CursorState)
    (data : CursorData) : CursorState × Bool :=
  if !acceptable data then (state, false)
  else if data.colors.isEmpty
      || data.colors.length > MAX_CURSOR_CACHE_BYTES then (state, false)
  else
    match decodeColors decompress data.colors
        (expectedLen data.width data.height) with
    | none => (state, false)
    | some rgba => (state.adopt data.entry rgba, true)

def applyId (decompress : Decompress) (state : CursorState) (id : Nat) :
    CursorState × CursorIdResult :=
  match state.shapes.lookup id with
  | none =>
    (state, .CacheMiss id
      (if state.evictedIds.contains id then .BudgetEvicted
      else .PendingOrUnknown))
  | some entry =>
    match decodeColors decompress entry.compressedColors
        entry.expectedRgbaLen with
    | none => (state.removeCachedEntry id, .CacheMiss id .CorruptCachedShape)
    | some rgba =>
      let shape := entry.shape rgba
      ({ state with
          selectedId := some id
          selectedShape := some shape }.touchShape id,
        .Selected shape)

def applyPosition (state : CursorState) (x y : Int) : CursorState × Bool :=
  if state.position = some (x, y) then (state, false)
  else ({ state with position := some (x, y) }, true)

end CursorState

end RemoteDesk.RustDesk
