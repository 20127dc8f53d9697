/-
The fence between pointer events and resizes of the desktop
(`RdpInputGeometryFence`, `rdp_input_queue.h`).

# The fence

A resize is required first and acknowledged later; a pointer event carries the
epoch it was mapped for. An event of the epoch that is required and acknowledged
passes as it is. Of the others only the release of a button passes, remapped into
the newest desktop: the one that is required, acknowledged or not.

# History

`demanded` and `settled` read from what happened which desktop is required and
which is acknowledged, and `keeps_step` says that the fence has these two.
-/
import RemoteDesk.Lib.Runs

namespace RemoteDesk.Rdp

open Lib

-- =============================== remapping

/-- A coordinate of one desktop on another, to the nearest. -/
def remapCoordinate (value sourceExtent targetExtent : Int) : Int :=
  if sourceExtent ≤ 1 ∨ targetExtent ≤ 1 then 0
  else
    let clamped := max 0 (min value (sourceExtent - 1))
    let numerator := clamped * (targetExtent - 1) + (sourceExtent - 1) / 2
    numerator / (sourceExtent - 1)

section Remap

variable {source target : Int}

theorem remapCoordinate_mono (source target : Int) {value value' : Int}
    (h : value ≤ value') :
    remapCoordinate value source target ≤ remapCoordinate value' source target := by
  rw [remapCoordinate, remapCoordinate]
  by_cases hsmall : source ≤ 1 ∨ target ≤ 1
  · rw [if_pos hsmall, if_pos hsmall]
  · rw [if_neg hsmall, if_neg hsmall]
    rw [not_or, not_le, not_le] at hsmall
    dsimp only
    have hclamped : max 0 (min value (source - 1))
        ≤ max 0 (min value' (source - 1)) := by omega
    apply Int.ediv_le_ediv (by omega)
    have hscaled := Int.mul_le_mul_of_nonneg_right hclamped
      (show (0 : Int) ≤ target - 1 by omega)
    omega

theorem remapCoordinate_first (source target : Int) :
    remapCoordinate 0 source target = 0 := by
  rw [remapCoordinate]
  by_cases hsmall : source ≤ 1 ∨ target ≤ 1
  · rw [if_pos hsmall]
  · rw [if_neg hsmall]
    rw [not_or, not_le, not_le] at hsmall
    dsimp only
    have hclamped : max 0 (min (0 : Int) (source - 1)) = 0 := by omega
    rw [hclamped, Int.zero_mul, Int.zero_add]
    apply Int.ediv_eq_zero_of_lt <;> omega

theorem remapCoordinate_last (hsource : 1 < source) (htarget : 0 < target) :
    remapCoordinate (source - 1) source target = target - 1 := by
  rw [remapCoordinate]
  by_cases hsmall : source ≤ 1 ∨ target ≤ 1
  · rw [if_pos hsmall]
    omega
  · rw [if_neg hsmall]
    dsimp only
    have hclamped : max 0 (min (source - 1) (source - 1)) = source - 1 := by omega
    rw [hclamped, Int.mul_comm, Int.add_comm,
      Int.add_mul_ediv_right _ _ (by omega)]
    have hhalf : (source - 1) / 2 / (source - 1) = 0 := by
      apply Int.ediv_eq_zero_of_lt <;> omega
    rw [hhalf, Int.zero_add]

/-- What is remapped is on the desktop. -/
theorem remapCoordinate_bounds (value source : Int) (htarget : 0 < target) :
    0 ≤ remapCoordinate value source target
      ∧ remapCoordinate value source target ≤ target - 1 := by
  by_cases hsource : source ≤ 1
  · rw [remapCoordinate, if_pos (.inl hsource)]
    omega
  · rw [not_le] at hsource
    have hclamp : remapCoordinate value source target
        = remapCoordinate (max 0 (min value (source - 1))) source target := by
      have htwice : max 0 (min (max 0 (min value (source - 1))) (source - 1))
          = max 0 (min value (source - 1)) := by omega
      rw [remapCoordinate, remapCoordinate, htwice]
    rw [hclamp]
    constructor
    · calc (0 : Int) = remapCoordinate 0 source target :=
            (remapCoordinate_first source target).symm
        _ ≤ _ := remapCoordinate_mono source target (by omega)
    · calc remapCoordinate (max 0 (min value (source - 1))) source target
          ≤ remapCoordinate (source - 1) source target :=
            remapCoordinate_mono source target (by omega)
        _ = target - 1 := remapCoordinate_last hsource htarget

end Remap

-- =============================== the fence

/-- A desktop, under the epoch it was announced with. -/
structure Geometry where
  epoch : UInt64 := 0
  width : Int := 0
  height : Int := 0
deriving DecidableEq

structure RdpInputGeometryFence where
  requiredEpoch : UInt64 := 0
  acknowledgedEpoch : UInt64 := 0
  droppedPointerEvents : Nat := 0
  requiredWidth : Int := 0
  requiredHeight : Int := 0
  acknowledgedWidth : Int := 0
  acknowledgedHeight : Int := 0
deriving DecidableEq

/-- The arguments of `preparePointer`. -/
structure PointerCall where
  eventEpoch : UInt64
  sourceWidth : Int
  sourceHeight : Int
  buttonRelease : Bool
  x : Int
  y : Int
deriving DecidableEq

namespace RdpInputGeometryFence

def reset (_ : RdpInputGeometryFence) (geometry : Geometry) :
    RdpInputGeometryFence where
  requiredEpoch := geometry.epoch
  acknowledgedEpoch := geometry.epoch
  requiredWidth := geometry.width
  requiredHeight := geometry.height
  acknowledgedWidth := geometry.width
  acknowledgedHeight := geometry.height
  droppedPointerEvents := 0

def beginResize (fence : RdpInputGeometryFence) (geometry : Geometry) :
    RdpInputGeometryFence :=
  if geometry.epoch > 0 ∧ geometry.width > 0 ∧ geometry.height > 0 then
    { fence with
      requiredEpoch := geometry.epoch
      requiredWidth := geometry.width
      requiredHeight := geometry.height }
  else fence

def acknowledge (fence : RdpInputGeometryFence) (geometry : Geometry) :
    RdpInputGeometryFence × Bool :=
  if geometry.epoch ≠ fence.requiredEpoch ∨ geometry.width ≠ fence.requiredWidth
      ∨ geometry.height ≠ fence.requiredHeight then
    (fence, false)
  else
    ({ fence with
      acknowledgedWidth := geometry.width
      acknowledgedHeight := geometry.height
      acknowledgedEpoch := geometry.epoch }, true)

/-- The event with its coordinates, unless it is dropped. -/
def preparePointer (fence : RdpInputGeometryFence) (call : PointerCall) :
    RdpInputGeometryFence × Option (Int × Int) :=
  if fence.requiredEpoch = fence.acknowledgedEpoch
      ∧ call.eventEpoch = fence.requiredEpoch then
    (fence, some (call.x, call.y))
  else if call.buttonRelease = true ∧ call.sourceWidth > 0 ∧ call.sourceHeight > 0
      ∧ fence.requiredWidth > 0 ∧ fence.requiredHeight > 0 then
    (fence, some (remapCoordinate call.x call.sourceWidth fence.requiredWidth,
      remapCoordinate call.y call.sourceHeight fence.requiredHeight))
  else
    ({ fence with droppedPointerEvents := fence.droppedPointerEvents + 1 }, none)

end RdpInputGeometryFence

-- ==================================== runs

inductive FenceCall
  | reset (geometry : Geometry)
  | beginResize (geometry : Geometry)
  | acknowledge (geometry : Geometry)
  | preparePointer (call : PointerCall)
deriving DecidableEq

/-- A call, and what it answered. -/
inductive FenceEvent
  | reset (geometry : Geometry)
  | resized (geometry : Geometry)
  | acknowledged (geometry : Geometry) (accepted : Bool)
  | pointer (call : PointerCall) (forwarded : Option (Int × Int))
deriving DecidableEq

structure FenceRun where
  fence : RdpInputGeometryFence := {}
  log : List FenceEvent := []
deriving DecidableEq

def FenceRun.step (run : FenceRun) : FenceCall → FenceRun
  | .reset geometry =>
    { fence := run.fence.reset geometry
      log := run.log ++ [.reset geometry] }
  | .beginResize geometry =>
    { fence := run.fence.beginResize geometry
      log := run.log ++ [.resized geometry] }
  | .acknowledge geometry =>
    { fence := (run.fence.acknowledge geometry).1
      log := run.log
        ++ [.acknowledged geometry (run.fence.acknowledge geometry).2] }
  | .preparePointer call =>
    { fence := (run.fence.preparePointer call).1
      log := run.log ++ [.pointer call (run.fence.preparePointer call).2] }

-- ================================= history

/-- The desktop that an event requires: of a resize only one that is real. -/
def FenceEvent.demands : FenceEvent → Option Geometry
  | .reset geometry => some geometry
  | .resized geometry =>
    if geometry.epoch > 0 ∧ geometry.width > 0 ∧ geometry.height > 0 then
      some geometry
    else none
  | _ => none

/-- The desktop that is acknowledged by an event. -/
def FenceEvent.settles : FenceEvent → Option Geometry
  | .reset geometry => some geometry
  | .acknowledged geometry true => some geometry
  | _ => none

/-- The desktop that was required last. -/
def demanded (log : List FenceEvent) : Geometry :=
  (log.filterMap FenceEvent.demands).getLastD {}

/-- The desktop that was acknowledged last. -/
def settled (log : List FenceEvent) : Geometry :=
  (log.filterMap FenceEvent.settles).getLastD {}

/-- An acknowledgement is accepted exactly when it is of the desktop that is
required. -/
def AcknowledgesRequired (log : List FenceEvent) : Prop :=
  EveryAt (fun earlier event => ∀ geometry accepted,
    event = .acknowledged geometry accepted →
      (accepted = true ↔ geometry = demanded earlier)) log

/-- An event passes as it is when its epoch is required and acknowledged.
Otherwise it is dropped, or it is a release, remapped onto `desktop`. -/
def PointersFenced (desktop : List FenceEvent → Geometry) (log : List FenceEvent) :
    Prop :=
  EveryAt (fun earlier event => ∀ call forwarded, event = .pointer call forwarded →
    if call.eventEpoch = (demanded earlier).epoch
        ∧ (settled earlier).epoch = (demanded earlier).epoch then
      forwarded = some (call.x, call.y)
    else ∀ x y, forwarded = some (x, y) →
      call.buttonRelease = true
        ∧ x = remapCoordinate call.x call.sourceWidth (desktop earlier).width
        ∧ y = remapCoordinate call.y call.sourceHeight (desktop earlier).height
        ∧ (0 ≤ x ∧ x ≤ (desktop earlier).width - 1)
        ∧ (0 ≤ y ∧ y ≤ (desktop earlier).height - 1)) log

theorem demanded_snoc (log : List FenceEvent) (event : FenceEvent) :
    demanded (log ++ [event]) = event.demands.getD (demanded log) := by
  rw [demanded, List.filterMap_append]
  cases hdemands : event.demands with
  | none => simp [hdemands, demanded]
  | some geometry => simp [hdemands]

theorem settled_snoc (log : List FenceEvent) (event : FenceEvent) :
    settled (log ++ [event]) = event.settles.getD (settled log) := by
  rw [settled, List.filterMap_append]
  cases hsettles : event.settles with
  | none => simp [hsettles, settled]
  | some geometry => simp [hsettles]

-- ============================== invariants

/-- The fence has the desktops that the history tells. -/
structure FenceRun.Keeps (run : FenceRun) : Prop where
  required : demanded run.log
    = ⟨run.fence.requiredEpoch, run.fence.requiredWidth, run.fence.requiredHeight⟩
  acknowledged : settled run.log
    = ⟨run.fence.acknowledgedEpoch, run.fence.acknowledgedWidth,
      run.fence.acknowledgedHeight⟩
  acknowledges : AcknowledgesRequired run.log
  fenced : PointersFenced demanded run.log

/-- A call that is no acknowledgement and no pointer event. -/
theorem FenceRun.Keeps.snoc {run : FenceRun} (h : run.Keeps) (event : FenceEvent)
    (hacknowledged : ∀ geometry accepted, event ≠ .acknowledged geometry accepted)
    (hpointer : ∀ call forwarded, event ≠ .pointer call forwarded) :
    AcknowledgesRequired (run.log ++ [event])
      ∧ PointersFenced demanded (run.log ++ [event]) :=
  ⟨everyAt_snoc.2 ⟨h.acknowledges, fun geometry accepted hevent =>
      absurd hevent (hacknowledged geometry accepted)⟩,
    everyAt_snoc.2 ⟨h.fenced, fun call forwarded hevent =>
      absurd hevent (hpointer call forwarded)⟩⟩

theorem FenceRun.Keeps.step {run : FenceRun} (h : run.Keeps) (call : FenceCall) :
    (run.step call).Keeps := by
  cases call with
  | reset geometry =>
    obtain ⟨hacknowledges, hfenced⟩ := h.snoc (.reset geometry)
      (fun _ _ hevent => by cases hevent) (fun _ _ hevent => by cases hevent)
    exact
      { required := demanded_snoc _ _
        acknowledged := settled_snoc _ _
        acknowledges := hacknowledges
        fenced := hfenced }
  | beginResize geometry =>
    obtain ⟨hacknowledges, hfenced⟩ := h.snoc (.resized geometry)
      (fun _ _ hevent => by cases hevent) (fun _ _ hevent => by cases hevent)
    refine
      { required := ?_
        acknowledged := ?_
        acknowledges := hacknowledges
        fenced := hfenced }
    · show demanded (run.log ++ [.resized geometry]) = _
      rw [demanded_snoc, FenceEvent.demands, FenceRun.step,
        RdpInputGeometryFence.beginResize]
      split
      · rfl
      · exact h.required
    · show settled (run.log ++ [.resized geometry]) = _
      rw [settled_snoc, FenceRun.step, RdpInputGeometryFence.beginResize]
      split
      · exact h.acknowledged
      · exact h.acknowledged
  | acknowledge geometry =>
    have hrequired := h.required
    have hfenced : PointersFenced demanded (run.log
        ++ [.acknowledged geometry (run.fence.acknowledge geometry).2]) :=
      everyAt_snoc.2 ⟨h.fenced, fun _ _ hevent => by cases hevent⟩
    by_cases hother : geometry.epoch ≠ run.fence.requiredEpoch
        ∨ geometry.width ≠ run.fence.requiredWidth
        ∨ geometry.height ≠ run.fence.requiredHeight
    · have hanswer : run.fence.acknowledge geometry = (run.fence, false) := by
        rw [RdpInputGeometryFence.acknowledge, if_pos hother]
      have hrefused : geometry ≠ demanded run.log := by
        rintro rfl
        rw [hrequired] at hother
        rcases hother with hother | hother | hother <;> exact hother rfl
      rw [FenceRun.step, hanswer]
      rw [hanswer] at hfenced
      refine
        { required := (demanded_snoc _ _).trans hrequired
          acknowledged := (settled_snoc _ _).trans h.acknowledged
          acknowledges := everyAt_snoc.2 ⟨h.acknowledges, ?_⟩
          fenced := hfenced }
      intro geometry' accepted hevent
      cases hevent
      exact ⟨fun hfalse => Bool.noConfusion hfalse, fun heq => absurd heq hrefused⟩
    · have hanswer : run.fence.acknowledge geometry
          = ({ run.fence with
            acknowledgedWidth := geometry.width
            acknowledgedHeight := geometry.height
            acknowledgedEpoch := geometry.epoch }, true) := by
        rw [RdpInputGeometryFence.acknowledge, if_neg hother]
      rw [not_or, not_or, not_not, not_not, not_not] at hother
      have haccepted : geometry = demanded run.log := by
        rw [hrequired, ← hother.1, ← hother.2.1, ← hother.2.2]
      rw [FenceRun.step, hanswer]
      rw [hanswer] at hfenced
      refine
        { required := (demanded_snoc _ _).trans hrequired
          acknowledged := settled_snoc _ _
          acknowledges := everyAt_snoc.2 ⟨h.acknowledges, ?_⟩
          fenced := hfenced }
      intro geometry' accepted hevent
      cases hevent
      exact ⟨fun _ => haccepted, fun _ => rfl⟩
  | preparePointer call =>
    have hrequired := h.required
    have hacknowledged := h.acknowledged
    have hacknowledges : AcknowledgesRequired
        (run.log ++ [.pointer call (run.fence.preparePointer call).2]) :=
      everyAt_snoc.2 ⟨h.acknowledges, fun _ _ hevent => by cases hevent⟩
    have hsame : (run.fence.preparePointer call).1
        = { run.fence with
            droppedPointerEvents :=
              (run.fence.preparePointer call).1.droppedPointerEvents } := by
      rw [RdpInputGeometryFence.preparePointer]
      split
      · rfl
      · split <;> rfl
    refine
      { required := ?_
        acknowledged := ?_
        acknowledges := hacknowledges
        fenced := everyAt_snoc.2 ⟨h.fenced, ?_⟩ }
    · show demanded (run.log ++ [_]) = _
      rw [demanded_snoc, FenceRun.step, hsame]
      exact hrequired
    · show settled (run.log ++ [_]) = _
      rw [settled_snoc, FenceRun.step, hsame]
      exact hacknowledged
    · intro call' forwarded hevent
      cases hevent
      rw [hrequired, hacknowledged]
      dsimp only
      rw [RdpInputGeometryFence.preparePointer]
      by_cases hpasses : call.eventEpoch = run.fence.requiredEpoch
          ∧ run.fence.acknowledgedEpoch = run.fence.requiredEpoch
      · rw [if_pos hpasses, if_pos ⟨hpasses.2.symm, hpasses.1⟩]
      · rw [if_neg hpasses, if_neg fun hboth => hpasses ⟨hboth.2, hboth.1.symm⟩]
        intro x y hforwarded
        by_cases hrelease : call.buttonRelease = true ∧ call.sourceWidth > 0
            ∧ call.sourceHeight > 0 ∧ run.fence.requiredWidth > 0
            ∧ run.fence.requiredHeight > 0
        · rw [if_pos hrelease] at hforwarded
          cases hforwarded
          obtain ⟨hbutton, -, -, hwidth, hheight⟩ := hrelease
          exact ⟨hbutton, rfl, rfl, remapCoordinate_bounds _ _ hwidth,
            remapCoordinate_bounds _ _ hheight⟩
        · rw [if_neg hrelease] at hforwarded
          cases hforwarded

/-- A button is released between a resize and its acknowledgement. -/
def releasedBetween : List FenceCall :=
  [.reset ⟨0, 1600, 1000⟩, .beginResize ⟨1, 3200, 2000⟩,
    .preparePointer ⟨0, 1600, 1000, true, 1599, 999⟩]

end RemoteDesk.Rdp
