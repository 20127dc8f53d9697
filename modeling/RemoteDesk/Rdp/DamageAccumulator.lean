/-
The damage accumulator of the RDP frame pump
(`rdp_damage_accumulator.cpp`).

# Buffers

The producer copies GDI frames into `staging`. A snapshot is either a
copy of the damaged rectangle or the whole staging buffer, whose place a
spare or the retained buffer then takes; `recycleSnapshot` puts a
consumed buffer back into rotation. `stagingHasCurrentFrame` says
whether staging shows a frame or is only storage.

# Memory

`std::vector::resize` fails only where it has to grow; which of the
growing allocations fail is an argument of the call. Products of `int`
are taken in the integers: where `width * 4` leaves `int` the source has
no defined behaviour.
-/
import RemoteDesk.Lib.Buffer
import RemoteDesk.Lib.Runs

namespace RemoteDesk.Rdp

open Lib (copyRows resize)

abbrev Bytes := List UInt8

-- ============================== rectangles

/-- `RdpDamageRect`. -/
structure RdpDamageRect where
  x : Nat := 0
  y : Nat := 0
  width : Nat := 0
  height : Nat := 0
  valid : Bool := false
deriving DecidableEq, Repr

/-- The rectangle contains the pixel. -/
abbrev RdpDamageRect.Has (rect : RdpDamageRect) (x y : Nat) : Prop :=
  rect.valid = true ∧ rect.x ≤ x ∧ x < rect.x + rect.width
    ∧ rect.y ≤ y ∧ y < rect.y + rect.height

/-- The whole frame. -/
def RdpDamageRect.full (width height : Nat) : RdpDamageRect :=
  { width := width, height := height, valid := true }

/-- `ClipRect`. -/
def clipRect (frameWidth frameHeight x y width height : Int) :
    RdpDamageRect :=
  if frameWidth ≤ 0 ∨ frameHeight ≤ 0 ∨ width ≤ 0 ∨ height ≤ 0 then {}
  else
    let left := max 0 x
    let top := max 0 y
    let right := min frameWidth (x + width)
    let bottom := min frameHeight (y + height)
    if right ≤ left ∨ bottom ≤ top then {}
    else
      { x := left.toNat, y := top.toNat, width := (right - left).toNat
        height := (bottom - top).toNat, valid := true }

/-- `UnionRect`: the bounding box. -/
def unionRect (left right : RdpDamageRect) : RdpDamageRect :=
  if !left.valid then right
  else if !right.valid then left
  else
    let x := min left.x right.x
    let y := min left.y right.y
    let maxX := max (left.x + left.width) (right.x + right.width)
    let maxY := max (left.y + left.height) (right.y + right.height)
    { x := x, y := y, width := maxX - x, height := maxY - y
      valid := decide (0 < maxX - x ∧ 0 < maxY - y) }

/-- `kFullFrameThresholdPercent`. -/
def fullFrameThresholdPercent : Nat := 70

/-- `CoversFullThreshold`, in 64-bit arithmetic. -/
def coversFullThreshold (rect : RdpDamageRect)
    (frameWidth frameHeight : Nat) : Bool :=
  if !rect.valid ∨ frameWidth = 0 ∨ frameHeight = 0 then false
  else
    let damagePixels := rect.width * rect.height % 2 ^ 64
    let framePixels := frameWidth * frameHeight % 2 ^ 64
    decide (damagePixels * 100 % 2 ^ 64
      ≥ framePixels * fullFrameThresholdPercent % 2 ^ 64)

-- =================================== state

/-- `RdpDamageAccumulator`, without the fields nothing reads. -/
structure RdpDamageAccumulator where
  staging : Bytes := []
  fullFrameSpare : Bytes := []
  retainedFrame : Bytes := []
  dirtySnapshotScratch : Bytes := []
  width : Nat := 0
  height : Nat := 0
  stride : Nat := 0
  rendererGeneration : Nat := 0
  pendingDamage : RdpDamageRect := {}
  pendingFullFrame : Bool := false
  stagingNeedsFullResync : Bool := false
  stagingHasCurrentFrame : Bool := false
  stagingVersion : Nat := 0
  retainedFrameVersion : Nat := 0
  preferRetainedRefresh : Bool := false
  snapshotAllocationLimit : Nat := 2 ^ 64 - 1
deriving DecidableEq, Repr

/-- The arguments of `update`; `data` is null or a buffer. -/
structure RdpDamageUpdate where
  data : Option Bytes
  width : Int
  height : Int
  sourceStride : Int
  dirtyX : Int
  dirtyY : Int
  dirtyWidth : Int
  dirtyHeight : Int
  rendererGeneration : Nat
  forceFullResync : Bool
deriving DecidableEq, Repr

/-- `RdpDamageUpdateResult`. -/
structure RdpDamageUpdateResult where
  accepted : Bool := false
  fullResync : Bool := false
  allocationFailed : Bool := false
  copiedBytes : Nat := 0
deriving DecidableEq, Repr

/-- `RdpDamageSnapshot`. -/
structure RdpDamageSnapshot where
  valid : Bool := false
  fullFrame : Bool := false
  deferred : Bool := false
  pixels : Bytes := []
  width : Nat := 0
  height : Nat := 0
  stride : Nat := 0
  damage : RdpDamageRect := {}
  rendererGeneration : Nat := 0
  snapshotCopiedBytes : Nat := 0
  fromRetainedFrame : Bool := false
  retainOnRecycle : Bool := false
  sourceVersion : Nat := 0
deriving DecidableEq, Repr

/-- Which allocations of a full resync fail. -/
structure AllocationFaults where
  staging : Bool := false
  spare : Bool := false
  retained : Bool := false
deriving DecidableEq, Repr

/-- `buffer.resize(n)`: an allocation can fail only to grow. -/
def tryResize (buffer : Bytes) (n : Nat) (fails : Bool) : Option Bytes :=
  if fails ∧ buffer.length < n then none else some (resize buffer 0 n)

/-- `++stagingVersion_`. -/
def nextVersion (version : Nat) : Nat := (version + 1) % 2 ^ 64

namespace RdpDamageAccumulator

variable (s : RdpDamageAccumulator)

-- ================================== update

/-- Promote the retained frame back to staging. -/
def promoteRetained : RdpDamageAccumulator :=
  { s with
    staging := s.retainedFrame
    retainedFrame := s.staging
    stagingHasCurrentFrame := true
    stagingNeedsFullResync := false
    stagingVersion := s.retainedFrameVersion
    retainedFrameVersion := 0 }

/-- The full-resync branch of `update`; the flag is false when an
allocation failed, with what had been stored by then. -/
def resync (data : Bytes) (width height sourceStride : Nat)
    (rendererGeneration : Nat) (faults : AllocationFaults) :
    RdpDamageAccumulator × Bool :=
  let frameBytes := width * height * 4
  let tightStride := width * 4
  match tryResize s.staging frameBytes faults.staging with
  | none => (s, false)
  | some staging =>
    let copied := { s with
      staging := copyRows staging 0 tightStride data 0 sourceStride
        tightStride height }
    match (if s.fullFrameSpare.length ≠ frameBytes then
        tryResize s.fullFrameSpare frameBytes faults.spare
      else some s.fullFrameSpare) with
    | none => (copied, false)
    | some spare =>
      let spared := { copied with fullFrameSpare := spare }
      match (if s.retainedFrame.length ≠ frameBytes then
          (tryResize s.retainedFrame frameBytes
            faults.retained).map fun retained => (retained, 0)
        else some (s.retainedFrame, s.retainedFrameVersion)) with
      | none => (spared, false)
      | some (retained, version) =>
        ({ spared with
          retainedFrame := retained
          retainedFrameVersion := version
          width := width
          height := height
          stride := tightStride
          rendererGeneration := rendererGeneration
          stagingVersion := nextVersion s.stagingVersion
          stagingNeedsFullResync := false
          stagingHasCurrentFrame := true
          pendingDamage := .full width height
          pendingFullFrame := true }, true)

/-- The dirty-rectangle branch of `update`. -/
def patch (data : Bytes) (sourceStride : Nat) (clipped : RdpDamageRect) :
    RdpDamageAccumulator :=
  let damage := unionRect s.pendingDamage clipped
  let covers := coversFullThreshold damage s.width s.height
  { s with
    staging := copyRows s.staging
      (clipped.y * s.stride + clipped.x * 4) s.stride data
      (clipped.y * sourceStride + clipped.x * 4) sourceStride
      (clipped.width * 4) clipped.height
    stagingVersion := nextVersion s.stagingVersion
    stagingHasCurrentFrame := true
    pendingDamage := if covers then .full s.width s.height else damage
    pendingFullFrame := s.pendingFullFrame || covers }

/-- The geometry of the frame is not the one in store. -/
def dimensionsChanged (width height : Nat) : Bool :=
  decide (s.width ≠ width ∨ s.height ≠ height ∨ s.stride ≠ width * 4)

/-- Whether `update` promotes the retained frame first. -/
def promotes (u : RdpDamageUpdate) (width height : Nat)
    (clipped : RdpDamageRect) : Bool :=
  !u.forceFullResync && !s.dimensionsChanged width height
    && decide (s.rendererGeneration = u.rendererGeneration)
    && clipped.valid && s.stagingNeedsFullResync
    && !s.stagingHasCurrentFrame
    && decide (s.retainedFrame.length = width * height * 4)
    && decide (s.retainedFrameVersion ≠ 0)

/-- Whether `update` copies the whole frame. -/
def needsResync (u : RdpDamageUpdate) (width height : Nat)
    (clipped : RdpDamageRect) : Bool :=
  u.forceFullResync || s.dimensionsChanged width height
    || decide (s.staging.length ≠ width * height * 4)
    || decide (s.rendererGeneration ≠ u.rendererGeneration)
    || !clipped.valid || s.stagingNeedsFullResync
    || !s.stagingHasCurrentFrame

end RdpDamageAccumulator

/-- The argument checks of `update`: the frame, when they pass. -/
def RdpDamageUpdate.checked (u : RdpDamageUpdate) : Option Bytes :=
  match u.data with
  | none => none
  | some data =>
    if u.width ≤ 0 ∨ u.height ≤ 0 ∨ u.sourceStride < u.width * 4
        ∨ u.rendererGeneration = 0 then none
    else if (u.height.toNat - 1) * u.sourceStride.toNat
        + u.width.toNat * 4 > data.length then none
    else some data

/-- The dirty rectangle inside the frame. -/
def RdpDamageUpdate.clipped (u : RdpDamageUpdate) : RdpDamageRect :=
  clipRect u.width u.height u.dirtyX u.dirtyY u.dirtyWidth u.dirtyHeight

namespace RdpDamageAccumulator

variable (s : RdpDamageAccumulator)

/-- `update`. -/
def update (u : RdpDamageUpdate) (faults : AllocationFaults) :
    RdpDamageAccumulator × RdpDamageUpdateResult :=
  match u.checked with
  | none => (s, {})
  | some data =>
    let width := u.width.toNat
    let height := u.height.toNat
    let sourceStride := u.sourceStride.toNat
    let s := if s.promotes u width height u.clipped then
      s.promoteRetained else s
    if s.needsResync u width height u.clipped then
      match s.resync data width height sourceStride
          u.rendererGeneration faults with
      | (s', false) => (s', { allocationFailed := true })
      | (s', true) =>
        (s', { accepted := true, fullResync := true
               copiedBytes := width * 4 * height })
    else
      let s' := s.patch data sourceStride u.clipped
      (s', { accepted := true, fullResync := s'.pendingFullFrame
             copiedBytes := u.clipped.width * 4 * u.clipped.height })

-- =============================== snapshots

/-- `requestFullSnapshot`. -/
def requestFullSnapshot (rendererGeneration : Nat) :
    RdpDamageAccumulator × Bool :=
  if rendererGeneration = 0
      ∨ (!s.stagingHasCurrentFrame ∨ s.staging = [])
        ∧ s.retainedFrame = []
      ∨ s.width = 0 ∨ s.height = 0 then (s, false)
  else
    ({ s with
      rendererGeneration := rendererGeneration
      pendingDamage := .full s.width s.height
      pendingFullFrame := true
      preferRetainedRefresh := true }, true)

/-- What every valid snapshot leaves behind. -/
def settled : RdpDamageAccumulator :=
  { s with
    pendingDamage := {}
    pendingFullFrame := false
    preferRetainedRefresh := false }

/-- The fields of a valid snapshot, around its pixels. -/
def snapshotOf (damage : RdpDamageRect) (pixels : Bytes)
    (sourceVersion : Nat) (fromRetainedFrame : Bool) :
    RdpDamageSnapshot :=
  { valid := true
    fullFrame := s.pendingFullFrame
    pixels := pixels
    width := s.width
    height := s.height
    stride := damage.width * 4
    damage := damage
    rendererGeneration := s.rendererGeneration
    snapshotCopiedBytes := if s.pendingFullFrame then 0
      else damage.width * 4 * damage.height
    fromRetainedFrame := fromRetainedFrame
    retainOnRecycle := s.pendingFullFrame && s.preferRetainedRefresh
    sourceVersion := sourceVersion }

/-- Staging is handed over, and a spare or the retained buffer takes its
place. -/
def handOver : RdpDamageAccumulator :=
  let taken := if s.fullFrameSpare ≠ [] then
      { s with staging := s.fullFrameSpare, fullFrameSpare := [] }
    else { s with staging := s.retainedFrame, retainedFrame := [] }
  { taken with
    stagingHasCurrentFrame := false
    stagingNeedsFullResync := false }

/-- The retained frame is handed over. -/
def handOverRetained : RdpDamageAccumulator :=
  { s with
    retainedFrame := []
    retainedFrameVersion := 0
    stagingHasCurrentFrame := false
    stagingNeedsFullResync := false }

/-- `takeSnapshot`; `fails` says whether the scratch buffer cannot
grow. -/
def takeSnapshot (fails : Bool) :
    RdpDamageAccumulator × RdpDamageSnapshot :=
  if !s.pendingDamage.valid
      ∨ (!s.stagingHasCurrentFrame ∨ s.staging = [])
        ∧ (!s.pendingFullFrame ∨ s.retainedFrame = []) then (s, {})
  else
    let damage := if s.pendingFullFrame then .full s.width s.height
      else s.pendingDamage
    let snapshotStride := damage.width * 4
    let snapshotBytes := snapshotStride * damage.height
    if snapshotBytes > s.snapshotAllocationLimit then (s, {})
    else if s.pendingFullFrame then
      if s.stagingHasCurrentFrame ∧ s.staging ≠ [] then
        if s.fullFrameSpare = [] ∧ s.retainedFrame = [] then
          (s, { deferred := true })
        else
          (s.handOver.settled,
            s.snapshotOf damage s.staging s.stagingVersion false)
      else
        (s.handOverRetained.settled,
          s.snapshotOf damage s.retainedFrame s.retainedFrameVersion true)
    else
      match tryResize s.dirtySnapshotScratch snapshotBytes fails with
      | none => (s, {})
      | some scratch =>
        ({ s with dirtySnapshotScratch := [] }.settled,
          s.snapshotOf damage
            (copyRows scratch 0 snapshotStride s.staging
              (damage.y * s.stride + damage.x * 4) s.stride
              snapshotStride damage.height)
            s.stagingVersion false)

/-- `fullFrameSpare_.swap(pixels)`, unless `pixels` is empty. -/
def spareUnlessEmpty (pixels : Bytes) : RdpDamageAccumulator :=
  if pixels ≠ [] then { s with fullFrameSpare := pixels } else s

/-- The consumed frame goes into the retained slot. -/
def retain (snapshot : RdpDamageSnapshot) : RdpDamageAccumulator :=
  { s with
    retainedFrame := snapshot.pixels
    retainedFrameVersion := snapshot.sourceVersion
    : RdpDamageAccumulator }.spareUnlessEmpty s.retainedFrame

/-- The retained frame is now the only current one. -/
def stagingStale : RdpDamageAccumulator :=
  { s with
    stagingHasCurrentFrame := false
    stagingNeedsFullResync := true }

/-- A newer frame arrived while the snapshot was being consumed. -/
def producerAdvanced (snapshot : RdpDamageSnapshot) : Bool :=
  s.stagingHasCurrentFrame
    && decide (s.stagingVersion ≠ snapshot.sourceVersion)

/-- `recycleSnapshot`. -/
def recycleSnapshot (snapshot : RdpDamageSnapshot) :
    RdpDamageAccumulator :=
  if !snapshot.valid ∨ snapshot.pixels = [] then s
  else if !snapshot.fullFrame then
    { s with dirtySnapshotScratch := snapshot.pixels }
  else if snapshot.rendererGeneration ≠ s.rendererGeneration
      ∨ snapshot.pixels.length ≠ s.width * s.height * 4 then s
  else if !s.producerAdvanced snapshot ∧ snapshot.retainOnRecycle then
    (s.retain snapshot).stagingStale
  else if !s.producerAdvanced snapshot ∧ !snapshot.fromRetainedFrame
      ∧ s.staging ≠ [] then
    { s with
      staging := snapshot.pixels
      stagingHasCurrentFrame := true
      : RdpDamageAccumulator }.spareUnlessEmpty s.staging
  else if !s.producerAdvanced snapshot ∧ snapshot.fromRetainedFrame then
    (s.retain snapshot).stagingStale
  else s.retain snapshot

-- =========================== what steps do

section Steps

variable {s}

theorem tryResize_eq {buffer resized : Bytes} {n : Nat} {fails : Bool}
    (h : tryResize buffer n fails = some resized) :
    resized = resize buffer 0 n := by
  unfold tryResize at h
  by_cases hfails : fails = true ∧ buffer.length < n
  · rw [if_pos hfails] at h
    cases h
  · rw [if_neg hfails] at h
    exact (Option.some.inj h).symm

/-- What a full resync that fails has stored by then. -/
theorem resync_failed {s' : RdpDamageAccumulator} {data : Bytes}
    {width height sourceStride rendererGeneration : Nat}
    {faults : AllocationFaults}
    (h : s.resync data width height sourceStride rendererGeneration
      faults = (s', false)) :
    ∃ staging spare,
      s' = { s with staging := staging, fullFrameSpare := spare } := by
  unfold resync at h
  dsimp only at h
  split at h
  · cases h
    exact ⟨s.staging, s.fullFrameSpare, rfl⟩
  split at h
  · cases h
    exact ⟨_, s.fullFrameSpare, rfl⟩
  split at h
  · cases h
    exact ⟨_, _, rfl⟩
  · cases h

/-- What a full resync stores. -/
theorem resync_succeeded {s' : RdpDamageAccumulator} {data : Bytes}
    {width height sourceStride rendererGeneration : Nat}
    {faults : AllocationFaults}
    (h : s.resync data width height sourceStride rendererGeneration
      faults = (s', true)) :
    ∃ spare retained version,
      (version = 0 ∨ version = s.retainedFrameVersion)
      ∧ s' = { s with
        staging := copyRows (resize s.staging 0 (width * height * 4)) 0
          (width * 4) data 0 sourceStride (width * 4) height
        fullFrameSpare := spare
        retainedFrame := retained
        retainedFrameVersion := version
        width := width
        height := height
        stride := width * 4
        rendererGeneration := rendererGeneration
        stagingVersion := nextVersion s.stagingVersion
        stagingNeedsFullResync := false
        stagingHasCurrentFrame := true
        pendingDamage := .full width height
        pendingFullFrame := true } := by
  unfold resync at h
  dsimp only at h
  split at h
  · cases h
  rename_i staging hstaging
  split at h
  · cases h
  split at h
  · cases h
  rename_i retained version hretained
  cases h
  rw [tryResize_eq hstaging]
  refine ⟨_, _, _, ?_, rfl⟩
  by_cases hsize : s.retainedFrame.length ≠ width * height * 4
  · rw [if_pos hsize] at hretained
    obtain ⟨_, -, hpair⟩ := Option.map_eq_some_iff.mp hretained
    exact .inl (Prod.mk.inj hpair).2.symm
  · rw [if_neg hsize] at hretained
    exact .inr (Prod.mk.inj (Option.some.inj hretained)).2.symm

/-- The state `update` works on: the retained frame may be promoted. -/
def promoted (s : RdpDamageAccumulator) (u : RdpDamageUpdate) :
    RdpDamageAccumulator :=
  if s.promotes u u.width.toNat u.height.toNat u.clipped then
    s.promoteRetained else s

/-- `update` refuses its arguments, fails or succeeds in a full resync,
or patches the dirty rectangle. -/
theorem update_cases (s : RdpDamageAccumulator) (u : RdpDamageUpdate)
    (faults : AllocationFaults) :
    (u.checked = none ∧ s.update u faults = (s, {}))
    ∨ ∃ data, u.checked = some data ∧
      (((s.promoted u).needsResync u u.width.toNat u.height.toNat
          u.clipped = true
        ∧ ((∃ s', (s.promoted u).resync data u.width.toNat u.height.toNat
            u.sourceStride.toNat u.rendererGeneration faults
              = (s', false)
            ∧ s.update u faults = (s', { allocationFailed := true }))
          ∨ ∃ s' result, (s.promoted u).resync data u.width.toNat
              u.height.toNat u.sourceStride.toNat u.rendererGeneration
              faults = (s', true)
            ∧ result.accepted = true
            ∧ s.update u faults = (s', result)))
      ∨ ((s.promoted u).needsResync u u.width.toNat u.height.toNat
          u.clipped = false
        ∧ ∃ result, result.accepted = true
          ∧ s.update u faults = ((s.promoted u).patch data
            u.sourceStride.toNat u.clipped, result))) := by
  unfold update promoted
  cases hchecked : u.checked with
  | none => exact .inl ⟨rfl, rfl⟩
  | some data =>
    refine .inr ⟨data, rfl, ?_⟩
    dsimp only
    generalize (if s.promotes u u.width.toNat u.height.toNat u.clipped
        = true then s.promoteRetained else s) = s₁
    cases hresync : s₁.needsResync u u.width.toNat u.height.toNat
        u.clipped with
    | true =>
      refine .inl ⟨rfl, ?_⟩
      rw [if_pos rfl]
      cases hr : s₁.resync data u.width.toNat u.height.toNat
          u.sourceStride.toNat u.rendererGeneration faults with
      | mk s' ok =>
        cases ok with
        | false => exact .inl ⟨s', rfl, rfl⟩
        | true => exact .inr ⟨s', _, rfl, rfl, rfl⟩
    | false => exact .inr ⟨rfl, _, rfl, rfl⟩

/-- The damage of the next snapshot. -/
def nextDamage (s : RdpDamageAccumulator) : RdpDamageRect :=
  if s.pendingFullFrame then .full s.width s.height else s.pendingDamage

/-- `takeSnapshot` changes nothing, or hands over staging or the
retained frame, or copies the damage. -/
theorem takeSnapshot_cases (s : RdpDamageAccumulator) (fails : Bool) :
    ((s.takeSnapshot fails).2.valid = false
        ∧ (s.takeSnapshot fails).1 = s)
    ∨ (s.pendingDamage.valid = true ∧
      ((s.pendingFullFrame = true ∧ s.stagingHasCurrentFrame = true
        ∧ s.takeSnapshot fails = (s.handOver.settled,
            s.snapshotOf s.nextDamage s.staging s.stagingVersion false))
      ∨ (s.pendingFullFrame = true
        ∧ (s.stagingHasCurrentFrame = false ∨ s.staging = [])
        ∧ s.takeSnapshot fails = (s.handOverRetained.settled,
            s.snapshotOf s.nextDamage s.retainedFrame
              s.retainedFrameVersion true))
      ∨ (s.pendingFullFrame = false ∧ s.stagingHasCurrentFrame = true
        ∧ ∃ scratch, scratch.length
            = s.nextDamage.width * 4 * s.nextDamage.height
          ∧ s.takeSnapshot fails
            = ({ s with dirtySnapshotScratch := []
                 : RdpDamageAccumulator }.settled,
              s.snapshotOf s.nextDamage
                (copyRows scratch 0 (s.nextDamage.width * 4) s.staging
                  (s.nextDamage.y * s.stride + s.nextDamage.x * 4)
                  s.stride (s.nextDamage.width * 4)
                  s.nextDamage.height)
                s.stagingVersion false)))) := by
  unfold takeSnapshot nextDamage
  dsimp only
  by_cases hnone : (!s.pendingDamage.valid) = true
      ∨ ((!s.stagingHasCurrentFrame) = true ∨ s.staging = [])
        ∧ ((!s.pendingFullFrame) = true ∨ s.retainedFrame = [])
  · rw [if_pos hnone]
    exact .inl ⟨rfl, rfl⟩
  rw [if_neg hnone]
  obtain ⟨hvalid, hsource⟩ := not_or.mp hnone
  rw [Bool.not_eq_true', Bool.not_eq_false] at hvalid
  by_cases hlimit : (if s.pendingFullFrame = true then
        RdpDamageRect.full s.width s.height
      else s.pendingDamage).width * 4
      * (if s.pendingFullFrame = true then
        RdpDamageRect.full s.width s.height
      else s.pendingDamage).height > s.snapshotAllocationLimit
  · rw [if_pos hlimit]
    exact .inl ⟨rfl, rfl⟩
  rw [if_neg hlimit]
  cases hfull : s.pendingFullFrame with
  | true =>
    rw [if_pos rfl, if_pos rfl]
    by_cases hcurrent : s.stagingHasCurrentFrame = true
        ∧ s.staging ≠ []
    · rw [if_pos hcurrent]
      by_cases hspare : s.fullFrameSpare = [] ∧ s.retainedFrame = []
      · rw [if_pos hspare]
        exact .inl ⟨rfl, rfl⟩
      · rw [if_neg hspare]
        exact .inr ⟨hvalid, .inl ⟨rfl, hcurrent.1, rfl⟩⟩
    · rw [if_neg hcurrent]
      refine .inr ⟨hvalid, .inr (.inl ⟨rfl, ?_, rfl⟩)⟩
      rwa [not_and_or, Bool.not_eq_true, not_not] at hcurrent
  | false =>
    rw [if_neg Bool.false_ne_true, if_neg Bool.false_ne_true]
    cases hscratch : tryResize s.dirtySnapshotScratch
        (s.pendingDamage.width * 4 * s.pendingDamage.height) fails with
    | none => exact .inl ⟨rfl, rfl⟩
    | some scratch =>
      refine .inr ⟨hvalid, .inr (.inr ⟨rfl, ?_, scratch, ?_, rfl⟩)⟩
      · rw [hfull] at hsource
        simp only [not_and_or, not_or, Bool.not_eq_true',
          Bool.not_false, true_or, not_true_eq_false, or_false,
          Bool.not_eq_false] at hsource
        exact hsource.1
      · rw [tryResize_eq hscratch, Lib.length_resize]

end Steps

end RdpDamageAccumulator

-- ==================================== runs

/-- A call of the accumulator. -/
inductive RdpDamageOp
  | update (u : RdpDamageUpdate) (faults : AllocationFaults)
  | requestFullSnapshot (rendererGeneration : Nat)
  | takeSnapshot (fails : Bool)
  | recycleSnapshot (snapshot : RdpDamageSnapshot)
deriving DecidableEq, Repr

namespace RdpDamageAccumulator

def step (s : RdpDamageAccumulator) : RdpDamageOp → RdpDamageAccumulator
  | .update u faults => (s.update u faults).1
  | .requestFullSnapshot rendererGeneration =>
    (s.requestFullSnapshot rendererGeneration).1
  | .takeSnapshot fails => (s.takeSnapshot fails).1
  | .recycleSnapshot snapshot => s.recycleSnapshot snapshot

/-- A fresh accumulator, which refuses snapshots over `limit` bytes. -/
def initial (limit : Nat) : RdpDamageAccumulator :=
  { snapshotAllocationLimit := limit }

/-- The accumulator after a run. -/
def reached (limit : Nat) (ops : List RdpDamageOp) :
    RdpDamageAccumulator :=
  Lib.exec step (initial limit) ops

end RdpDamageAccumulator

end RemoteDesk.Rdp
