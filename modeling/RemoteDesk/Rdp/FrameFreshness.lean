/-
Which snapshots of the damage accumulator show the current frame.

# The pump

`FramePump` is the accumulator with the snapshot in flight and, for the
specification, the frame of the latest accepted update. The producer
calls `update` and `requestFullSnapshot`, the render worker takes a
snapshot while it holds none and recycles it at most once.

# Invariant

`FramePump.Inv` follows the current frame through the buffers: it is in
staging, or in the retained slot while a resync is owed, or in the full
snapshot in flight while nothing newer arrived.

# Results

`snapshot_fresh`: in a run where the retained slot is presented only
while a resync is owed, no update runs out of memory, a new source
stride is copied whole and the version counter does not wrap, every
valid snapshot shows the latest accepted frame. `snapshot_stale` hands
out the zeros of a retained slot that was never filled.
-/
import RemoteDesk.Rdp.DamageKept

namespace RemoteDesk.Rdp

open Lib (exec Meets copyRows resize RowsInside)

-- ================================== frames

/-- A frame passed to `update`. -/
structure SourceFrame where
  data : Bytes
  width : Nat
  height : Nat
  stride : Nat
deriving DecidableEq, Repr

/-- The frame of an update, when its arguments pass the checks. -/
def RdpDamageUpdate.frame (u : RdpDamageUpdate) : Option SourceFrame :=
  u.checked.map fun data =>
    ⟨data, u.width.toNat, u.height.toNat, u.sourceStride.toNat⟩

/-- The pixel lies in the dirty rectangle. -/
abbrev RdpDamageUpdate.Dirty (u : RdpDamageUpdate) (x y : Nat) : Prop :=
  (u.dirtyX ≤ x ∧ x < u.dirtyX + u.dirtyWidth)
    ∧ u.dirtyY ≤ y ∧ y < u.dirtyY + u.dirtyHeight

/-- Two frames of one geometry differ at most in the dirty rectangle. -/
def RdpDamageUpdate.Touches (u : RdpDamageUpdate)
    (old new : SourceFrame) : Prop :=
  old.width = new.width → old.height = new.height →
    old.stride = new.stride →
    ∀ x < new.width, ∀ y < new.height, ¬ u.Dirty x y → ∀ channel < 4,
      new.data[y * new.stride + x * 4 + channel]?
        = old.data[y * new.stride + x * 4 + channel]?

/-- The snapshot shows the frame in every pixel of its damage. -/
def RdpDamageSnapshot.Shows (snapshot : RdpDamageSnapshot)
    (frame : SourceFrame) : Prop :=
  ∀ x y, snapshot.damage.Has x y → ∀ channel < 4, ∃ byte,
    snapshot.pixels[(y - snapshot.damage.y) * snapshot.stride
        + (x - snapshot.damage.x) * 4 + channel]? = some byte
      ∧ frame.data[y * frame.stride + x * 4 + channel]? = some byte

namespace SourceFrame

/-- What the checks of `update` establish. -/
structure WellFormed (frame : SourceFrame) : Prop where
  width_pos : 0 < frame.width
  height_pos : 0 < frame.height
  stride_le : frame.width * 4 ≤ frame.stride
  inside : (frame.height - 1) * frame.stride + frame.width * 4
    ≤ frame.data.length

/-- The buffer holds the rows of the frame without gaps. -/
def Tight (frame : SourceFrame) (buffer : Bytes) : Prop :=
  buffer.length = frame.width * frame.height * 4
    ∧ ∀ y < frame.height, ∀ k < frame.width * 4,
      buffer[y * (frame.width * 4) + k]?
        = frame.data[y * frame.stride + k]?

variable {frame : SourceFrame}

theorem WellFormed.row (h : frame.WellFormed) {y : Nat}
    (hy : y < frame.height) :
    y * frame.stride + frame.width * 4 ≤ frame.data.length := by
  have hle : y * frame.stride ≤ (frame.height - 1) * frame.stride :=
    Nat.mul_le_mul_right _ (by omega)
  have hinside := h.inside
  omega

/-- Rows of the frame, from a column on. -/
theorem WellFormed.rowsInside (h : frame.WellFormed)
    (top left : Nat) {count n : Nat}
    (htop : top + count ≤ frame.height) (hleft : left + n ≤ frame.width * 4) :
    RowsInside frame.data.length (top * frame.stride + left)
      frame.stride n count := by
  intro row hrow
  have hrow' := h.row (show top + row < frame.height by omega)
  rw [Nat.add_mul] at hrow'
  omega

/-- Rows of a tight buffer, from a column on. -/
theorem rowsInside_tight {buffer : Bytes} (h : frame.Tight buffer)
    (top left : Nat) {count n : Nat}
    (htop : top + count ≤ frame.height) (hleft : left + n ≤ frame.width * 4) :
    RowsInside buffer.length (top * (frame.width * 4) + left)
      (frame.width * 4) n count := by
  intro row hrow
  have hlast : (top + row + 1) * (frame.width * 4)
      ≤ frame.height * (frame.width * 4) :=
    Nat.mul_le_mul_right _ (by omega)
  have htotal : frame.width * frame.height * 4
      = frame.height * (frame.width * 4) := by ring
  rw [Nat.add_mul, Nat.add_mul] at hlast
  rw [h.1, htotal]
  omega

end SourceFrame

variable {u : RdpDamageUpdate} {frame : SourceFrame}

/-- An accepted update has a frame, and it is well formed. -/
theorem RdpDamageUpdate.frame_wellFormed (h : u.frame = some frame) :
    frame.WellFormed ∧ u.checked = some frame.data
      ∧ frame.width = u.width.toNat ∧ frame.height = u.height.toNat
      ∧ frame.stride = u.sourceStride.toNat := by
  obtain ⟨data, hdata, rfl⟩ := Option.map_eq_some_iff.mp h
  refine ⟨?_, hdata, rfl, rfl, rfl⟩
  unfold RdpDamageUpdate.checked at hdata
  split at hdata
  · cases hdata
  split at hdata
  · cases hdata
  split at hdata
  · cases hdata
  · cases hdata
    rename_i hargs hsize
    constructor
    · dsimp only; omega
    · dsimp only; omega
    · dsimp only; omega
    · dsimp only; omega

-- =========================== copied frames

/-- Row and column of an index are unique. -/
theorem row_column_inj {stride y y' k k' : Nat} (hk : k < stride)
    (hk' : k' < stride) (h : y * stride + k = y' * stride + k') :
    y = y' ∧ k = k' := by
  have hdiv := congrArg (· / stride) h
  have hmod := congrArg (· % stride) h
  rw [Nat.mul_comm y, Nat.mul_comm y', Nat.mul_add_div (by omega),
    Nat.mul_add_div (by omega), Nat.div_eq_of_lt hk,
    Nat.div_eq_of_lt hk'] at hdiv
  rw [Nat.mul_comm y, Nat.mul_comm y', Nat.mul_add_mod,
    Nat.mul_add_mod, Nat.mod_eq_of_lt hk, Nat.mod_eq_of_lt hk'] at hmod
  exact ⟨hdiv, hmod⟩

namespace SourceFrame

variable {old : SourceFrame}

/-- A full resync leaves the frame in staging. -/
theorem WellFormed.tight_copyRows (h : frame.WellFormed)
    (buffer : Bytes) :
    frame.Tight (copyRows
      (resize buffer 0 (frame.width * frame.height * 4)) 0
      (frame.width * 4) frame.data 0 frame.stride (frame.width * 4)
      frame.height) := by
  have hsrc : RowsInside frame.data.length 0 frame.stride
      (frame.width * 4) frame.height := by
    have hrows := h.rowsInside 0 0 (Nat.zero_add frame.height).le
      (Nat.zero_add (frame.width * 4)).le
    rwa [Nat.zero_mul] at hrows
  have hdst : RowsInside
      (resize buffer (0 : UInt8) (frame.width * frame.height * 4)).length
      0 (frame.width * 4) (frame.width * 4) frame.height := by
    intro row hrow
    have hlast : (row + 1) * (frame.width * 4)
        ≤ frame.height * (frame.width * 4) :=
      Nat.mul_le_mul_right _ hrow
    have htotal : frame.width * frame.height * 4
        = frame.height * (frame.width * 4) := by ring
    rw [Nat.succ_mul] at hlast
    rw [Lib.length_resize, htotal]
    omega
  refine ⟨?_, fun y hy k hk => ?_⟩
  · rw [Lib.length_copyRows hdst hsrc, Lib.length_resize]
  · have hget := Lib.getElem?_copyRows le_rfl hdst hsrc hy hk
    rwa [Nat.zero_add, Nat.zero_add] at hget

/-- Patching the dirty rectangle turns one frame into the next. -/
theorem Tight.patch {buffer : Bytes} (hold : old.Tight buffer)
    (h : frame.WellFormed) (hwidth : old.width = frame.width)
    (hheight : old.height = frame.height) (htouches : u.Touches old frame)
    (hstride : old.stride = frame.stride) (hw : frame.width = u.width.toNat)
    (hh : frame.height = u.height.toNat) (hvalid : u.clipped.valid = true) :
    frame.Tight (copyRows buffer
      (u.clipped.y * (frame.width * 4) + u.clipped.x * 4)
      (frame.width * 4) frame.data
      (u.clipped.y * frame.stride + u.clipped.x * 4) frame.stride
      (u.clipped.width * 4) u.clipped.height) := by
  obtain ⟨hx, hy⟩ := clipRect_inside u.width u.height u.dirtyX u.dirtyY
    u.dirtyWidth u.dirtyHeight hvalid
  rw [← hw] at hx
  rw [← hh] at hy
  have hx : u.clipped.x + u.clipped.width ≤ frame.width := hx
  have hy : u.clipped.y + u.clipped.height ≤ frame.height := hy
  have hcols : u.clipped.x * 4 + u.clipped.width * 4
      ≤ frame.width * 4 := by omega
  have hdst := rowsInside_tight hold (u.clipped.y) (u.clipped.x * 4)
    (hheight ▸ hy) (hwidth ▸ hcols)
  rw [hwidth] at hdst
  have hsrc := h.rowsInside (u.clipped.y) (u.clipped.x * 4) hy hcols
  refine ⟨?_, fun y hy' k hk => ?_⟩
  · rw [Lib.length_copyRows hdst hsrc, hold.1, hwidth, hheight]
  by_cases hin : u.clipped.y ≤ y ∧ y < u.clipped.y + u.clipped.height
      ∧ u.clipped.x * 4 ≤ k
      ∧ k < (u.clipped.x + u.clipped.width) * 4
  · obtain ⟨hy₁, hy₂, hk₁, hk₂⟩ := hin
    have hrow : y - u.clipped.y < u.clipped.height := by omega
    have hcol : k - u.clipped.x * 4 < u.clipped.width * 4 := by omega
    have hget := Lib.getElem?_copyRows (by omega) hdst hsrc hrow hcol
    have hat : ∀ stride, u.clipped.y * stride + u.clipped.x * 4
        + (y - u.clipped.y) * stride + (k - u.clipped.x * 4)
        = y * stride + k := by
      intro stride
      have hrow : u.clipped.y * stride + (y - u.clipped.y) * stride
          = y * stride := by
        rw [← Nat.add_mul, Nat.add_sub_cancel' hy₁]
      omega
    rwa [hat, hat] at hget
  · rw [Lib.getElem?_copyRows_of_ne hdst hsrc]
    · have holdAt := hold.2 y (by omega) k (by omega)
      rw [hwidth, hstride] at holdAt
      rw [holdAt]
      have hpixel := htouches hwidth hheight hstride (k / 4) (by omega)
        y hy' (fun hdirty => hin ?_) (k % 4) (by omega)
      · rw [show y * frame.stride + k / 4 * 4 + k % 4
          = y * frame.stride + k by omega] at hpixel
        exact hpixel.symm
      · have hclipped : u.clipped.Has (k / 4) y :=
          clipRect_has.mpr ⟨by omega, hdirty⟩
        obtain ⟨-, h₁, h₂, h₃, h₄⟩ := hclipped
        omega
    · intro row hrow j hj heq
      refine hin ?_
      have hsplit : y * (frame.width * 4) + k
          = (u.clipped.y + row) * (frame.width * 4)
            + (u.clipped.x * 4 + j) := by
        rw [heq, Nat.add_mul]
        omega
      obtain ⟨hyrow, hkcol⟩ := row_column_inj hk (by omega) hsplit
      omega

end SourceFrame

-- ==================================== pump

/-- The accumulator, the latest accepted frame, and the snapshot the
render worker holds. -/
structure FramePump where
  acc : RdpDamageAccumulator
  frame : Option SourceFrame := none
  inFlight : Option RdpDamageSnapshot := none
deriving DecidableEq, Repr

inductive FramePumpOp
  | update (u : RdpDamageUpdate) (faults : AllocationFaults)
  | requestFullSnapshot (rendererGeneration : Nat)
  | takeSnapshot (fails : Bool)
  /-- The snapshot in flight goes back to the accumulator. -/
  | recycle
  /-- The snapshot in flight is destroyed. -/
  | discard
deriving DecidableEq, Repr

namespace FramePump

def step (s : FramePump) : FramePumpOp → FramePump
  | .update u faults =>
    { s with
      acc := (s.acc.update u faults).1
      frame := if (s.acc.update u faults).2.accepted then u.frame
        else s.frame }
  | .requestFullSnapshot rendererGeneration =>
    { s with acc := (s.acc.requestFullSnapshot rendererGeneration).1 }
  | .takeSnapshot fails =>
    { s with
      acc := (s.acc.takeSnapshot fails).1
      inFlight := if (s.acc.takeSnapshot fails).2.valid then
        some (s.acc.takeSnapshot fails).2 else s.inFlight }
  | .recycle =>
    match s.inFlight with
    | none => s
    | some snapshot =>
      { s with
        acc := s.acc.recycleSnapshot snapshot
        inFlight := none }
  | .discard => { s with inFlight := none }

def initial (limit : Nat) : FramePump := { acc := .initial limit }

/-- How producer and worker use the accumulator: a new frame differs
from the last one in its dirty rectangle only, and one snapshot is in
flight at a time. -/
def Orderly (s : FramePump) : FramePumpOp → Prop
  | .update u _ => ∀ old new, s.frame = some old → u.frame = some new →
      u.Touches old new
  | .takeSnapshot _ => s.inFlight = none
  | _ => True

/-- What keeps stale bytes out of a snapshot: no allocation of an update
fails, a frame with another source stride is copied whole, the version
counter does not wrap, and a snapshot falls back on the retained slot
only while a resync is owed. -/
def Safe (s : FramePump) : FramePumpOp → Prop
  | .update u faults =>
    faults = {}
      ∧ s.acc.stagingVersion + 1 < 2 ^ 64
      ∧ ∀ old new, s.frame = some old → u.frame = some new →
        old.stride = new.stride
          ∨ (s.acc.promoted u).needsResync u new.width new.height
            u.clipped = true
  | .takeSnapshot _ =>
    s.acc.pendingFullFrame = true →
    s.acc.stagingHasCurrentFrame = false ∨ s.acc.staging = [] →
      s.acc.stagingNeedsFullResync = true
  | _ => True

-- =============================== invariant

/-- Where the current frame is. -/
structure Inv (s : FramePump) : Prop where
  geometry : ∀ frame, s.frame = some frame → frame.WellFormed
    ∧ s.acc.width = frame.width ∧ s.acc.height = frame.height
    ∧ s.acc.stride = frame.width * 4
  bounded : s.acc.Bounded
  version : s.acc.retainedFrameVersion ≤ s.acc.stagingVersion
    ∧ s.acc.stagingVersion < 2 ^ 64
  current : s.acc.stagingHasCurrentFrame = true →
    ∃ frame, s.frame = some frame ∧ frame.Tight s.acc.staging
  owed : s.acc.stagingNeedsFullResync = true →
    s.acc.stagingHasCurrentFrame = false
      ∧ (∃ frame, s.frame = some frame
        ∧ frame.Tight s.acc.retainedFrame)
      ∧ ∀ snapshot, s.inFlight = some snapshot →
        snapshot.fullFrame = false
  flight : ∀ snapshot, s.inFlight = some snapshot →
    snapshot.fullFrame = true →
    (s.acc.stagingHasCurrentFrame = false
      ∧ (∃ frame, s.frame = some frame ∧ frame.Tight snapshot.pixels)
      ∧ snapshot.sourceVersion ≤ s.acc.stagingVersion)
    ∨ (s.acc.stagingHasCurrentFrame = true
      ∧ snapshot.sourceVersion < s.acc.stagingVersion)

theorem inv_initial (limit : Nat) : (initial limit).Inv := by
  constructor
  · exact nofun
  · exact RdpDamageRect.inside_default _ _
  · exact ⟨Nat.le_refl _, Nat.two_pow_pos 64⟩
  · exact nofun
  · exact nofun
  · exact nofun

variable {s : FramePump}

/-- A version in flight is below the next one. -/
private theorem Inv.version_lt (h : s.Inv)
    {snapshot : RdpDamageSnapshot}
    (hflight : s.inFlight = some snapshot)
    (hfull : snapshot.fullFrame = true) :
    snapshot.sourceVersion < s.acc.stagingVersion + 1 := by
  rcases h.flight snapshot hflight hfull with ⟨-, -, hle⟩ | ⟨-, hlt⟩
  · omega
  · omega

/-- What an update works on: the promoted state shows the current frame
if it shows one, and its version is no newer. -/
private theorem Inv.promoted (h : s.Inv) (u : RdpDamageUpdate) :
    ((s.acc.promoted u).stagingHasCurrentFrame = true →
      ∃ frame, s.frame = some frame
        ∧ frame.Tight (s.acc.promoted u).staging)
    ∧ (s.acc.promoted u).stagingVersion ≤ s.acc.stagingVersion
    ∧ (s.acc.promoted u).retainedFrameVersion
      ≤ (s.acc.promoted u).stagingVersion
    ∧ ∀ snapshot, s.inFlight = some snapshot →
      snapshot.fullFrame = true →
      snapshot.sourceVersion < (s.acc.promoted u).stagingVersion + 1 := by
  unfold RdpDamageAccumulator.promoted
  by_cases hp : s.acc.promotes u u.width.toNat u.height.toNat u.clipped
      = true
  · rw [if_pos hp]
    have howed : s.acc.stagingNeedsFullResync = true := by
      unfold RdpDamageAccumulator.promotes at hp
      simp only [Bool.and_eq_true] at hp
      exact hp.1.1.1.2
    obtain ⟨-, hretained, hflight⟩ := h.owed howed
    refine ⟨fun _ => hretained, h.version.1, Nat.zero_le _, ?_⟩
    intro snapshot hsnapshot hfull
    rw [hflight snapshot hsnapshot] at hfull
    cases hfull
  · rw [if_neg hp]
    exact ⟨h.current, Nat.le_refl _, h.version.1,
      fun snapshot hsnapshot hfull => h.version_lt hsnapshot hfull⟩

variable {acc : RdpDamageAccumulator}

/-- An accepted frame in staging re-establishes the invariant. -/
private theorem inv_accept (hframe : frame.WellFormed)
    (hgeometry : acc.width = frame.width ∧ acc.height = frame.height
      ∧ acc.stride = frame.width * 4) (hbounded : acc.Bounded)
    (hversion : acc.retainedFrameVersion ≤ acc.stagingVersion
      ∧ acc.stagingVersion < 2 ^ 64)
    (hcurrent : acc.stagingHasCurrentFrame = true)
    (howed : acc.stagingNeedsFullResync = false)
    (htight : frame.Tight acc.staging)
    (hflight : ∀ snapshot, s.inFlight = some snapshot →
      snapshot.fullFrame = true →
      snapshot.sourceVersion < acc.stagingVersion) :
    ({ s with acc := acc, frame := some frame } : FramePump).Inv := by
  constructor
  · rintro _ ⟨⟩
    exact ⟨hframe, hgeometry⟩
  · exact hbounded
  · exact hversion
  · exact fun _ => ⟨frame, rfl, htight⟩
  · intro hneeds
    rw [howed] at hneeds
    cases hneeds
  · exact fun snapshot hsnapshot hfull =>
      .inr ⟨hcurrent, hflight snapshot hsnapshot hfull⟩

/-- Without faults a full resync goes through. -/
private theorem resync_faultless {data : Bytes}
    {width height sourceStride generation : Nat} (acc' : RdpDamageAccumulator) :
    acc.resync data width height sourceStride generation {}
      ≠ (acc', false) := by
  unfold RdpDamageAccumulator.resync tryResize
  dsimp only
  intro h
  split at h
  · rename_i hstaging
    cases hstaging
  split at h
  · rename_i hspare
    split at hspare
    · cases hspare
    · cases hspare
  split at h
  · rename_i hretained
    split at hretained
    · cases hretained
    · cases hretained
  · cases h

/-- A rectangle is only patched into a current staging buffer. -/
private theorem patched_current {width height : Nat}
    (h : acc.needsResync u width height u.clipped = false) :
    acc.stagingHasCurrentFrame = true
      ∧ acc.stagingNeedsFullResync = false ∧ u.clipped.valid = true := by
  unfold RdpDamageAccumulator.needsResync at h
  simp only [Bool.or_eq_false_iff, Bool.not_eq_false'] at h
  exact ⟨h.2, h.1.2, h.1.1.2⟩

theorem Inv.update (h : s.Inv) {faults : AllocationFaults}
    (horderly : s.Orderly (.update u faults))
    (hsafe : s.Safe (.update u faults)) : (s.step (.update u faults)).Inv := by
  obtain ⟨rfl, hwrap, hstride⟩ := hsafe
  have hbounded : (s.acc.update u {}).1.Bounded :=
    h.bounded.step (.update u {})
  obtain ⟨hcurrent, hle, hretained, hflight⟩ := h.promoted u
  have hnext : nextVersion (s.acc.promoted u).stagingVersion
      = (s.acc.promoted u).stagingVersion + 1 :=
    Nat.mod_eq_of_lt (by omega)
  unfold FramePump.step
  dsimp only
  rcases RdpDamageAccumulator.update_cases s.acc u {} with
    ⟨-, hu⟩ | ⟨data, hdata, ⟨hresync, ⟨s', hs', hu⟩ |
      ⟨s', result, hs', haccepted, hu⟩⟩ |
      ⟨hresync, result, haccepted, hu⟩⟩
  · rw [hu]
    exact h
  · exact absurd hs' (resync_faultless s')
  · obtain ⟨spare, retained, version, hv, hacc⟩ :=
      RdpDamageAccumulator.resync_succeeded hs'
    have hframe : u.frame = some ⟨data, u.width.toNat, u.height.toNat,
        u.sourceStride.toNat⟩ := by
      unfold RdpDamageUpdate.frame
      rw [hdata]
      rfl
    rw [hu] at hbounded ⊢
    dsimp only at hbounded ⊢
    rw [if_pos haccepted, hframe]
    obtain ⟨hwell, -⟩ := RdpDamageUpdate.frame_wellFormed hframe
    refine inv_accept hwell ?_ hbounded ?_ ?_ ?_ ?_ ?_
    all_goals rw [hacc]
    · exact ⟨rfl, rfl, rfl⟩
    · dsimp only
      rw [hnext]
      omega
    · exact hwell.tight_copyRows _
    · intro snapshot hsnapshot hfull
      have hlt := hflight snapshot hsnapshot hfull
      dsimp only
      rw [hnext]
      exact hlt
  · have hframe : u.frame = some ⟨data, u.width.toNat, u.height.toNat,
        u.sourceStride.toNat⟩ := by
      unfold RdpDamageUpdate.frame
      rw [hdata]
      rfl
    obtain ⟨hwell, -⟩ := RdpDamageUpdate.frame_wellFormed hframe
    obtain ⟨hhas, howed, hvalid⟩ := patched_current hresync
    obtain ⟨old, hold, htight⟩ := hcurrent hhas
    obtain ⟨hwidth, hheight, hrow⟩ :=
      RdpDamageAccumulator.patched_dimensions hresync
    obtain ⟨-, hw, hh, -⟩ := h.geometry old hold
    rw [RdpDamageAccumulator.promoted_width] at hwidth
    rw [RdpDamageAccumulator.promoted_height] at hheight
    have hsame : old.stride = u.sourceStride.toNat := by
      rcases hstride old _ hold hframe with hsame | hcopied
      · exact hsame
      · rw [hresync] at hcopied
        cases hcopied
    rw [hu] at hbounded ⊢
    dsimp only at hbounded ⊢
    rw [if_pos haccepted, hframe]
    refine inv_accept hwell ⟨?_, ?_, ?_⟩ hbounded ?_ rfl howed ?_ ?_
    · exact (RdpDamageAccumulator.promoted_width u).trans hwidth
    · exact (RdpDamageAccumulator.promoted_height u).trans hheight
    · exact hrow
    · show (s.acc.promoted u).retainedFrameVersion
          ≤ nextVersion (s.acc.promoted u).stagingVersion
        ∧ nextVersion (s.acc.promoted u).stagingVersion < 2 ^ 64
      rw [hnext]
      omega
    · have hpatched := htight.patch hwell (hw.symm.trans hwidth)
        (hh.symm.trans hheight) (horderly old _ hold hframe) hsame rfl
        rfl hvalid
      unfold RdpDamageAccumulator.patch
      dsimp only
      rwa [hrow]
    · intro snapshot hsnapshot hfull
      have hlt := hflight snapshot hsnapshot hfull
      show snapshot.sourceVersion
        < nextVersion (s.acc.promoted u).stagingVersion
      rw [hnext]
      exact hlt

theorem Inv.requestFullSnapshot (h : s.Inv) (rendererGeneration : Nat) :
    (s.step (.requestFullSnapshot rendererGeneration)).Inv := by
  have hbounded := h.bounded.step (.requestFullSnapshot rendererGeneration)
  dsimp only [FramePump.step, RdpDamageAccumulator.step] at hbounded ⊢
  unfold RdpDamageAccumulator.requestFullSnapshot at hbounded ⊢
  by_cases hrefused : rendererGeneration = 0
      ∨ ((!s.acc.stagingHasCurrentFrame) = true ∨ s.acc.staging = [])
        ∧ s.acc.retainedFrame = []
      ∨ s.acc.width = 0 ∨ s.acc.height = 0
  · rw [if_pos hrefused]
    exact h
  · rw [if_neg hrefused] at hbounded ⊢
    exact ⟨h.geometry, hbounded, h.version, h.current, h.owed, h.flight⟩

-- =============================== snapshots

/-- Of a full snapshot every pixel shows the frame it was tight with. -/
private theorem shows_full (hframe : frame.WellFormed)
    (hfull : acc.pendingFullFrame = true) (hwidth : acc.width = frame.width)
    (hheight : acc.height = frame.height) {pixels : Bytes}
    (htight : frame.Tight pixels) (version : Nat) (retained : Bool) :
    (acc.snapshotOf acc.nextDamage pixels version retained).Shows
      frame := by
  have hdamage : acc.nextDamage = .full frame.width frame.height := by
    unfold RdpDamageAccumulator.nextDamage
    rw [if_pos hfull, hwidth, hheight]
  intro x y hin channel hchannel
  rw [hdamage]
  have hin : (RdpDamageRect.full frame.width frame.height).Has x y := by
    rw [← hdamage]
    exact hin
  obtain ⟨hx, hy⟩ := RdpDamageRect.has_full.mp hin
  have hrow := hframe.row hy
  have hpixel := htight.2 y hy (x * 4 + channel) (by omega)
  have hat : y * frame.stride + x * 4 + channel
      < frame.data.length := by omega
  refine ⟨frame.data[y * frame.stride + x * 4 + channel], ?_,
    List.getElem?_eq_getElem hat⟩
  show pixels[(y - 0) * (frame.width * 4) + (x - 0) * 4 + channel]? = _
  rw [Nat.sub_zero, Nat.sub_zero, Nat.add_assoc, hpixel, ← Nat.add_assoc,
    List.getElem?_eq_getElem hat]

/-- So does every pixel of a copied rectangle. -/
private theorem shows_copied (hframe : frame.WellFormed)
    (hstride : acc.stride = frame.width * 4) (htight : frame.Tight acc.staging)
    (hvalid : acc.nextDamage.valid = true)
    (hinside : acc.nextDamage.Inside frame.width frame.height) {scratch : Bytes}
    (hscratch : scratch.length
      = acc.nextDamage.width * 4 * acc.nextDamage.height) (version : Nat)
    (retained : Bool) :
    (acc.snapshotOf acc.nextDamage
      (copyRows scratch 0 (acc.nextDamage.width * 4) acc.staging
        (acc.nextDamage.y * acc.stride + acc.nextDamage.x * 4)
        acc.stride (acc.nextDamage.width * 4) acc.nextDamage.height)
      version retained).Shows frame := by
  obtain ⟨hx, hy⟩ := hinside hvalid
  rw [hstride]
  generalize acc.nextDamage = damage at *
  have hdst : RowsInside scratch.length 0 (damage.width * 4)
      (damage.width * 4) damage.height := by
    intro row hrow
    have hlast : (row + 1) * (damage.width * 4)
        ≤ damage.height * (damage.width * 4) :=
      Nat.mul_le_mul_right _ hrow
    rw [Nat.succ_mul] at hlast
    rw [hscratch, Nat.mul_comm (damage.width * 4)]
    omega
  have hsrc := SourceFrame.rowsInside_tight htight damage.y
    (damage.x * 4) hy (show damage.x * 4 + damage.width * 4
      ≤ frame.width * 4 by omega)
  rintro x y ⟨-, hx₁, hx₂, hy₁, hy₂⟩ channel hchannel
  have hx₁ : damage.x ≤ x := hx₁
  have hx₂ : x < damage.x + damage.width := hx₂
  have hy₁ : damage.y ≤ y := hy₁
  have hy₂ : y < damage.y + damage.height := hy₂
  have hrow : y - damage.y < damage.height := by omega
  have hcol : (x - damage.x) * 4 + channel < damage.width * 4 := by omega
  have hget := Lib.getElem?_copyRows le_rfl hdst hsrc hrow hcol
  have hat : damage.y * (frame.width * 4) + damage.x * 4
        + (y - damage.y) * (frame.width * 4)
        + ((x - damage.x) * 4 + channel)
      = y * (frame.width * 4) + (x * 4 + channel) := by
    have hrows : damage.y * (frame.width * 4)
        + (y - damage.y) * (frame.width * 4)
        = y * (frame.width * 4) := by
      rw [← Nat.add_mul, Nat.add_sub_cancel' hy₁]
    omega
  rw [hat, htight.2 y (by omega) _ (by omega), Nat.zero_add,
    ← Nat.add_assoc, ← Nat.add_assoc] at hget
  have hrow' := hframe.row (show y < frame.height by omega)
  have hlt : y * frame.stride + x * 4 + channel
      < frame.data.length := by omega
  exact ⟨frame.data[y * frame.stride + x * 4 + channel],
    hget.trans (List.getElem?_eq_getElem hlt),
    List.getElem?_eq_getElem hlt⟩

/-- Handing over staging moves buffers and settles the flags. -/
private theorem handOver_fields (acc : RdpDamageAccumulator) :
    ∃ staging spare retained, acc.handOver
      = { acc with
          staging := staging
          fullFrameSpare := spare
          retainedFrame := retained
          stagingHasCurrentFrame := false
          stagingNeedsFullResync := false } := by
  unfold RdpDamageAccumulator.handOver
  dsimp only
  split
  · exact ⟨_, _, _, rfl⟩
  · exact ⟨_, _, _, rfl⟩

/-- A full snapshot takes the current frame into flight. -/
private theorem Inv.handed (h : s.Inv) (acc : RdpDamageAccumulator)
    (hgeometry : acc.width = s.acc.width ∧ acc.height = s.acc.height
      ∧ acc.stride = s.acc.stride) (hbounded : acc.Bounded)
    (hversion : acc.retainedFrameVersion ≤ acc.stagingVersion
      ∧ acc.stagingVersion = s.acc.stagingVersion)
    (hhas : acc.stagingHasCurrentFrame = false)
    (howed : acc.stagingNeedsFullResync = false) {snapshot : RdpDamageSnapshot}
    (hframe : s.frame = some frame) (htight : frame.Tight snapshot.pixels)
    (hsource : snapshot.sourceVersion ≤ s.acc.stagingVersion) :
    ({ s with acc := acc, inFlight := some snapshot } : FramePump).Inv := by
  constructor
  · intro frame' hframe'
    obtain ⟨hwell, hwidth, hheight, hstride⟩ := h.geometry frame' hframe'
    exact ⟨hwell, hgeometry.1.trans hwidth, hgeometry.2.1.trans hheight,
      hgeometry.2.2.trans hstride⟩
  · exact hbounded
  · exact ⟨hversion.1, hversion.2 ▸ h.version.2⟩
  · intro hcurrent
    rw [hhas] at hcurrent
    cases hcurrent
  · intro hneeds
    rw [howed] at hneeds
    cases hneeds
  · rintro _ ⟨⟩ -
    exact .inl ⟨hhas, ⟨frame, hframe, htight⟩, hversion.2 ▸ hsource⟩

/-- What a valid snapshot shows, and that it keeps the invariant. -/
theorem Inv.takeSnapshot (h : s.Inv) {fails : Bool}
    (hsafe : s.Safe (.takeSnapshot fails)) :
    (s.step (.takeSnapshot fails)).Inv
      ∧ ((s.acc.takeSnapshot fails).2.valid = true →
        ∃ frame, s.frame = some frame
          ∧ (s.acc.takeSnapshot fails).2.Shows frame) := by
  have hbounded := h.bounded.step (.takeSnapshot fails)
  dsimp only [FramePump.step, RdpDamageAccumulator.step] at hbounded ⊢
  rcases RdpDamageAccumulator.takeSnapshot_cases s.acc fails with
    ⟨hinvalid, hs⟩ | ⟨hvalid, ⟨hfull, hhas, hs⟩ |
      ⟨hfull, hstale, hs⟩ | ⟨hdelta, hhas, scratch, hscratch, hs⟩⟩
  · rw [hs, hinvalid, if_neg Bool.false_ne_true]
    exact ⟨h, nofun⟩
  · obtain ⟨frame, hframe, htight⟩ := h.current hhas
    obtain ⟨hwell, hwidth, hheight, hstride⟩ := h.geometry frame hframe
    rw [hs] at hbounded ⊢
    refine ⟨?_, fun _ => ⟨frame, hframe,
      shows_full hwell hfull hwidth hheight htight _ _⟩⟩
    obtain ⟨staging, spare, retained, hover⟩ := handOver_fields s.acc
    refine h.handed s.acc.handOver.settled ?_ hbounded ?_ ?_ ?_ hframe
      htight (Nat.le_refl _)
    all_goals rw [hover]
    · exact ⟨rfl, rfl, rfl⟩
    · exact ⟨h.version.1, rfl⟩
    · rfl
    · rfl
  · obtain ⟨-, ⟨frame, hframe, htight⟩, -⟩ :=
      h.owed (hsafe hfull hstale)
    obtain ⟨hwell, hwidth, hheight, hstride⟩ := h.geometry frame hframe
    rw [hs] at hbounded ⊢
    refine ⟨?_, fun _ => ⟨frame, hframe,
      shows_full hwell hfull hwidth hheight htight _ _⟩⟩
    exact h.handed s.acc.handOverRetained.settled ⟨rfl, rfl, rfl⟩
      hbounded ⟨Nat.zero_le _, rfl⟩ rfl rfl hframe htight h.version.1
  · obtain ⟨frame, hframe, htight⟩ := h.current hhas
    obtain ⟨hwell, hwidth, hheight, hstride⟩ := h.geometry frame hframe
    have hdamage : s.acc.nextDamage = s.acc.pendingDamage := by
      unfold RdpDamageAccumulator.nextDamage
      rw [hdelta, if_neg Bool.false_ne_true]
    have hinside : s.acc.nextDamage.Inside frame.width frame.height := by
      rw [hdamage, ← hwidth, ← hheight]
      exact h.bounded
    rw [hs] at hbounded ⊢
    refine ⟨?_, fun _ => ⟨frame, hframe, shows_copied hwell hstride htight
      (hdamage ▸ hvalid) hinside hscratch _ _⟩⟩
    refine ⟨h.geometry, hbounded, h.version, h.current, ?_, ?_⟩
    · intro howed
      rw [(h.owed howed).1] at hhas
      cases hhas
    · rintro _ ⟨⟩ hfull
      rw [show s.acc.pendingFullFrame = true from hfull] at hdelta
      cases hdelta

-- =============================== recycling

private theorem spareUnlessEmpty_fields (acc : RdpDamageAccumulator)
    (pixels : Bytes) :
    ∃ spare, acc.spareUnlessEmpty pixels
      = { acc with fullFrameSpare := spare } := by
  unfold RdpDamageAccumulator.spareUnlessEmpty
  split
  · exact ⟨pixels, rfl⟩
  · exact ⟨acc.fullFrameSpare, rfl⟩

theorem Inv.discard (h : s.Inv) : (s.step .discard).Inv :=
  ⟨h.geometry, h.bounded, h.version, h.current,
    fun howed => ⟨(h.owed howed).1, (h.owed howed).2.1, nofun⟩, nofun⟩

/-- A consumed frame goes where it is still current, or where nothing
is read from it. -/
theorem Inv.recycle (h : s.Inv) : (s.step .recycle).Inv := by
  unfold FramePump.step
  cases hflight : s.inFlight with
  | none => exact h
  | some snapshot =>
  have hbounded := h.bounded.step (.recycleSnapshot snapshot)
  dsimp only [RdpDamageAccumulator.step] at hbounded ⊢
  unfold RdpDamageAccumulator.recycleSnapshot at hbounded ⊢
  by_cases hempty : (!snapshot.valid) = true ∨ snapshot.pixels = []
  · rw [if_pos hempty]
    exact h.discard
  rw [if_neg hempty] at hbounded ⊢
  cases hfull : snapshot.fullFrame with
  | false => exact ⟨h.geometry, h.bounded, h.version, h.current,
      fun howed => ⟨(h.owed howed).1, (h.owed howed).2.1, nofun⟩, nofun⟩
  | true =>
  rw [hfull, Bool.not_true, if_neg Bool.false_ne_true] at hbounded
  rw [Bool.not_true, if_neg Bool.false_ne_true]
  have hnotOwed : s.acc.stagingNeedsFullResync = false := by
    cases howed : s.acc.stagingNeedsFullResync with
    | false => rfl
    | true =>
      rw [(h.owed howed).2.2 snapshot hflight] at hfull
      cases hfull
  by_cases hdropped : snapshot.rendererGeneration
      ≠ s.acc.rendererGeneration
      ∨ snapshot.pixels.length ≠ s.acc.width * s.acc.height * 4
  · rw [if_pos hdropped]
    exact h.discard
  rw [if_neg hdropped] at hbounded ⊢
  rcases h.flight snapshot hflight hfull with
    ⟨hhas, ⟨frame, hframe, htight⟩, hsource⟩ | ⟨hhas, hsource⟩
  · -- nothing newer arrived, so the snapshot is still current
    have hadvanced : s.acc.producerAdvanced snapshot = false := by
      unfold RdpDamageAccumulator.producerAdvanced
      rw [hhas, Bool.false_and]
    have hretain : (s.acc.retain snapshot).stagingStale.Bounded →
        ({ s with acc := (s.acc.retain snapshot).stagingStale
                  inFlight := none } : FramePump).Inv := by
      intro hbounded
      obtain ⟨spare, hspare⟩ := spareUnlessEmpty_fields
        { s.acc with
          retainedFrame := snapshot.pixels
          retainedFrameVersion := snapshot.sourceVersion }
        s.acc.retainedFrame
      unfold RdpDamageAccumulator.retain at hbounded ⊢
      rw [hspare] at hbounded ⊢
      exact ⟨h.geometry, hbounded, ⟨hsource, h.version.2⟩, nofun,
        fun _ => ⟨rfl, ⟨frame, hframe, htight⟩, nofun⟩, nofun⟩
    rw [hadvanced] at hbounded ⊢
    simp only [Bool.not_false, true_and] at hbounded ⊢
    by_cases hkeep : snapshot.retainOnRecycle = true
    · rw [if_pos hkeep] at hbounded ⊢
      exact hretain hbounded
    rw [if_neg hkeep] at hbounded ⊢
    by_cases hback : (!snapshot.fromRetainedFrame) = true
        ∧ s.acc.staging ≠ []
    · rw [if_pos hback] at hbounded ⊢
      obtain ⟨spare, hspare⟩ := spareUnlessEmpty_fields
        { s.acc with
          staging := snapshot.pixels
          stagingHasCurrentFrame := true } s.acc.staging
      rw [hspare] at hbounded ⊢
      refine ⟨h.geometry, hbounded, h.version,
        fun _ => ⟨frame, hframe, htight⟩, fun howed => ?_, nofun⟩
      rw [show s.acc.stagingNeedsFullResync = true from howed]
        at hnotOwed
      cases hnotOwed
    rw [if_neg hback] at hbounded ⊢
    by_cases hfrom : snapshot.fromRetainedFrame = true
    · rw [if_pos hfrom] at hbounded ⊢
      exact hretain hbounded
    rw [if_neg hfrom] at hbounded ⊢
    obtain ⟨spare, hspare⟩ := spareUnlessEmpty_fields
      { s.acc with
        retainedFrame := snapshot.pixels
        retainedFrameVersion := snapshot.sourceVersion }
      s.acc.retainedFrame
    unfold RdpDamageAccumulator.retain at hbounded ⊢
    rw [hspare] at hbounded ⊢
    refine ⟨h.geometry, hbounded, ⟨hsource, h.version.2⟩,
      h.current, fun howed => ?_, nofun⟩
    rw [show s.acc.stagingNeedsFullResync = true from howed] at hnotOwed
    cases hnotOwed
  · -- staging moved on: the snapshot is storage only
    have hadvanced : s.acc.producerAdvanced snapshot = true := by
      unfold RdpDamageAccumulator.producerAdvanced
      rw [hhas, Bool.true_and]
      exact decide_eq_true (Nat.ne_of_gt hsource)
    rw [hadvanced] at hbounded ⊢
    simp only [Bool.not_true, Bool.false_eq_true, false_and, if_false]
      at hbounded ⊢
    obtain ⟨spare, hspare⟩ := spareUnlessEmpty_fields
      { s.acc with
        retainedFrame := snapshot.pixels
        retainedFrameVersion := snapshot.sourceVersion }
      s.acc.retainedFrame
    unfold RdpDamageAccumulator.retain at hbounded ⊢
    rw [hspare] at hbounded ⊢
    refine ⟨h.geometry, hbounded,
      ⟨Nat.le_of_lt hsource, h.version.2⟩, h.current,
      fun howed => ?_, nofun⟩
    rw [show s.acc.stagingNeedsFullResync = true from howed] at hnotOwed
    cases hnotOwed

-- ==================================== runs

/-- Every orderly and safe step keeps the invariant. -/
theorem Inv.step (h : s.Inv) {op : FramePumpOp}
    (hop : s.Orderly op ∧ s.Safe op) : (s.step op).Inv := by
  cases op with
  | update u faults => exact h.update hop.1 hop.2
  | requestFullSnapshot rendererGeneration =>
    exact h.requestFullSnapshot rendererGeneration
  | takeSnapshot fails => exact (h.takeSnapshot hop.2).1
  | recycle => exact h.recycle
  | discard => exact h.discard

/-- In every orderly and safe run, a valid snapshot shows the frame of
the latest accepted update. -/
theorem snapshot_fresh (limit : Nat) (ops : List FramePumpOp)
    (fails : Bool)
    (hrun : Meets FramePump.step (fun s op => s.Orderly op ∧ s.Safe op)
      (initial limit) (ops ++ [.takeSnapshot fails]))
    (hvalid : ((exec FramePump.step (initial limit)
      ops).acc.takeSnapshot fails).2.valid = true) :
    ∃ frame, (exec FramePump.step (initial limit) ops).frame = some frame
      ∧ ((exec FramePump.step (initial limit)
        ops).acc.takeSnapshot fails).2.Shows frame := by
  obtain ⟨hops, ⟨-, hsafe⟩, -⟩ := Lib.meets_append.mp hrun
  have hstep : ∀ (s : FramePump) op, s.Inv →
      s.Orderly op ∧ s.Safe op → (s.step op).Inv :=
    fun _ _ h hop => h.step hop
  have hinv := hops.invariant hstep (inv_initial limit)
  exact (hinv.takeSnapshot hsafe).2 hvalid

/-- A frame, shown whole, then one changed pixel. -/
theorem snapshot_fresh_dirty :
    ∃ frame, (exec FramePump.step (initial 100)
        [.update ⟨some [1, 2, 3, 4, 5, 6, 7, 8], 2, 1, 8, 0, 0, 2, 1, 1,
          false⟩ {}, .takeSnapshot false, .recycle,
        .update ⟨some [1, 2, 3, 4, 9, 9, 9, 9], 2, 1, 8, 1, 0, 1, 1, 1,
          false⟩ {}]).frame = some frame
      ∧ ((exec FramePump.step (initial 100)
        [.update ⟨some [1, 2, 3, 4, 5, 6, 7, 8], 2, 1, 8, 0, 0, 2, 1, 1,
          false⟩ {}, .takeSnapshot false, .recycle,
        .update ⟨some [1, 2, 3, 4, 9, 9, 9, 9], 2, 1, 8, 1, 0, 1, 1, 1,
          false⟩ {}]).acc.takeSnapshot false).2.Shows frame := by
  refine snapshot_fresh 100 _ false ⟨⟨?_, ?_⟩, ⟨rfl, ?_⟩,
    ⟨trivial, trivial⟩, ⟨?_, ?_⟩, ⟨rfl, ?_⟩, trivial⟩ (by decide)
  · exact nofun
  · exact ⟨rfl, by decide, nofun⟩
  · unfold Safe
    decide
  · rintro _ _ ⟨⟩ ⟨⟩ - - -
    decide
  · refine ⟨rfl, by decide, ?_⟩
    rintro _ _ ⟨⟩ ⟨⟩
    exact .inl rfl
  · unfold Safe
    decide

/-- The first frame is handed out, a full snapshot is asked for under a
new generation, the recycled frame is dropped over its generation, and
the next snapshot presents the retained slot that only ever held
zeros. -/
theorem snapshot_stale :
    ¬ ∀ limit ops fails,
      Meets FramePump.step FramePump.Orderly (initial limit)
        (ops ++ [.takeSnapshot fails]) →
      ((exec FramePump.step (initial limit) ops).acc.takeSnapshot
        fails).2.valid = true →
      ∃ frame, (exec FramePump.step (initial limit) ops).frame
          = some frame
        ∧ ((exec FramePump.step (initial limit) ops).acc.takeSnapshot
          fails).2.Shows frame := by
  intro h
  obtain ⟨frame, hframe, hshows⟩ := h 100
    [.update ⟨some [1, 2, 3, 4], 1, 1, 4, 0, 0, 1, 1, 1, false⟩ {},
      .takeSnapshot false, .requestFullSnapshot 2, .recycle] false
    ⟨nofun, rfl, trivial, trivial, rfl, trivial⟩ (by decide)
  cases hframe
  obtain ⟨byte, hpixel, hdata⟩ := hshows 0 0 (by decide) 0 (by decide)
  have hzero : (0 : UInt8) = byte := Option.some.inj hpixel
  have hone : (1 : UInt8) = byte := Option.some.inj hdata
  rw [← hzero] at hone
  exact absurd hone (by decide)

end FramePump

end RemoteDesk.Rdp
