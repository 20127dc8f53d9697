/-
The damage accumulator loses no damage.

# Coverage

Damage is merged into a bounding box, promoted to the whole frame, and
cleared only by a snapshot whose damage contains it. What a step does to
one damaged pixel is `Covers.step`; the run follows by induction
(`Covers.run`). A frame of another size starts over with everything
damaged, so a pixel is only owed while it lies in the current frame.

# Results

`damage_kept`: coverage, the bounds of the pending damage, and that a
snapshot that is not valid changes nothing. `damage_outside_smaller`: a
rectangle outside a smaller frame is dropped.
-/
import RemoteDesk.Rdp.DamageAccumulator

namespace RemoteDesk.Rdp

open Lib (exec)

-- ============================== rectangles

namespace RdpDamageRect

/-- The rectangle lies inside a frame. -/
def Inside (rect : RdpDamageRect) (width height : Nat) : Prop :=
  rect.valid = true →
    rect.x + rect.width ≤ width ∧ rect.y + rect.height ≤ height

theorem inside_default (width height : Nat) :
    ({} : RdpDamageRect).Inside width height := nofun

theorem inside_full (width height : Nat) :
    (full width height).Inside width height := by
  intro _
  unfold full
  dsimp only
  omega

theorem has_full {width height x y : Nat} :
    (full width height).Has x y ↔ x < width ∧ y < height := by
  unfold full Has
  simp only [true_and]
  omega

end RdpDamageRect

/-- A clipped rectangle is the rectangle inside the frame. -/
theorem clipRect_has {frameWidth frameHeight x y width height : Int}
    {px py : Nat} :
    (clipRect frameWidth frameHeight x y width height).Has px py
      ↔ (px < frameWidth ∧ py < frameHeight)
        ∧ (x ≤ px ∧ px < x + width) ∧ y ≤ py ∧ py < y + height := by
  unfold clipRect
  dsimp only
  split
  · unfold RdpDamageRect.Has
    dsimp only
    omega
  split
  · unfold RdpDamageRect.Has
    dsimp only
    omega
  · unfold RdpDamageRect.Has
    simp only [true_and]
    omega

theorem clipRect_inside (frameWidth frameHeight x y width height : Int) :
    (clipRect frameWidth frameHeight x y width height).Inside
      frameWidth.toNat frameHeight.toNat := by
  unfold clipRect
  dsimp only
  split
  · exact RdpDamageRect.inside_default _ _
  split
  · exact RdpDamageRect.inside_default _ _
  · intro _
    dsimp only
    omega

theorem unionRect_left {left right : RdpDamageRect} {x y : Nat}
    (h : left.Has x y) : (unionRect left right).Has x y := by
  obtain ⟨hvalid, hx⟩ := h
  unfold unionRect
  rw [if_neg (by rw [hvalid]; exact Bool.false_ne_true)]
  split
  · exact ⟨hvalid, hx⟩
  · unfold RdpDamageRect.Has
    simp only [decide_eq_true_eq]
    omega

theorem unionRect_right {left right : RdpDamageRect} {x y : Nat}
    (h : right.Has x y) : (unionRect left right).Has x y := by
  unfold unionRect
  split
  · exact h
  · obtain ⟨hvalid, hx⟩ := h
    rw [if_neg (by rw [hvalid]; exact Bool.false_ne_true)]
    unfold RdpDamageRect.Has
    simp only [decide_eq_true_eq]
    omega

theorem unionRect_inside {left right : RdpDamageRect}
    {width height : Nat} (hleft : left.Inside width height)
    (hright : right.Inside width height) :
    (unionRect left right).Inside width height := by
  unfold unionRect
  split
  · exact hright
  split
  · exact hleft
  · rename_i hl hr
    have hl := hleft (by simpa using hl)
    have hr := hright (by simpa using hr)
    intro _
    dsimp only
    omega

namespace RdpDamageAccumulator

variable {s : RdpDamageAccumulator}

-- ============================== one update

@[simp] theorem promoted_pendingDamage (u : RdpDamageUpdate) :
    (s.promoted u).pendingDamage = s.pendingDamage := by
  unfold promoted; split <;> rfl

@[simp] theorem promoted_width (u : RdpDamageUpdate) :
    (s.promoted u).width = s.width := by
  unfold promoted; split <;> rfl

@[simp] theorem promoted_height (u : RdpDamageUpdate) :
    (s.promoted u).height = s.height := by
  unfold promoted; split <;> rfl

/-- A rectangle is patched into a frame of the same size. -/
theorem patched_dimensions {u : RdpDamageUpdate} {width height : Nat}
    (h : s.needsResync u width height u.clipped = false) :
    s.width = width ∧ s.height = height ∧ s.stride = width * 4 := by
  unfold needsResync dimensionsChanged at h
  simp only [Bool.or_eq_false_iff, decide_eq_false_iff_not, not_or,
    not_not] at h
  exact h.1.1.1.1.1.2

/-- An update leaves the damage alone, or damages the whole of a frame
of the new size, or adds its rectangle to a frame of the same size. -/
theorem update_damage (s : RdpDamageAccumulator) (u : RdpDamageUpdate)
    (faults : AllocationFaults) :
    ((s.update u faults).2.accepted = false
      ∧ (s.update u faults).1.pendingDamage = s.pendingDamage
      ∧ (s.update u faults).1.width = s.width
      ∧ (s.update u faults).1.height = s.height)
    ∨ ((s.update u faults).1.width = u.width.toNat
      ∧ (s.update u faults).1.height = u.height.toNat
      ∧ ((s.update u faults).1.pendingDamage
          = .full u.width.toNat u.height.toNat
        ∨ (s.update u faults).1.pendingDamage
            = unionRect s.pendingDamage u.clipped
          ∧ s.width = u.width.toNat ∧ s.height = u.height.toNat)) := by
  rcases update_cases s u faults with
    ⟨-, h⟩ | ⟨data, -, ⟨-, ⟨s', hs', h⟩ | ⟨s', result, hs', -, h⟩⟩ |
      ⟨hdims, result, -, h⟩⟩
  · rw [h]
    exact .inl ⟨rfl, rfl, rfl, rfl⟩
  · rw [h]
    obtain ⟨staging, spare, rfl⟩ := resync_failed hs'
    exact .inl ⟨rfl, by simp⟩
  · rw [h]
    obtain ⟨spare, retained, version, -, rfl⟩ := resync_succeeded hs'
    exact .inr ⟨rfl, rfl, .inl rfl⟩
  · rw [h]
    obtain ⟨hwidth, hheight, -⟩ := patched_dimensions hdims
    rw [promoted_width] at hwidth
    rw [promoted_height] at hheight
    refine .inr ⟨?_, ?_, ?_⟩
    · simpa [patch] using hwidth
    · simpa [patch] using hheight
    · unfold patch
      dsimp only
      rw [promoted_width, promoted_height, promoted_pendingDamage]
      split
      · rw [hwidth, hheight]
        exact .inl rfl
      · exact .inr ⟨rfl, hwidth, hheight⟩

/-- The rectangle of an accepted update is damaged afterwards. -/
theorem update_covers {u : RdpDamageUpdate} {faults : AllocationFaults}
    (h : (s.update u faults).2.accepted = true) {x y : Nat}
    (hclipped : u.clipped.Has x y) :
    (s.update u faults).1.pendingDamage.Has x y := by
  rcases update_damage s u faults with ⟨hrefused, -⟩ |
    ⟨-, -, hfull | ⟨hunion, -⟩⟩
  · rw [h] at hrefused
    cases hrefused
  · rw [hfull, RdpDamageRect.has_full]
    obtain ⟨hframe, -⟩ := clipRect_has.mp hclipped
    omega
  · rw [hunion]
    exact unionRect_right hclipped

-- =============================== recycling

@[simp] theorem spareUnlessEmpty_pendingDamage (pixels : Bytes) :
    (s.spareUnlessEmpty pixels).pendingDamage = s.pendingDamage := by
  unfold spareUnlessEmpty; split <;> rfl

@[simp] theorem spareUnlessEmpty_width (pixels : Bytes) :
    (s.spareUnlessEmpty pixels).width = s.width := by
  unfold spareUnlessEmpty; split <;> rfl

@[simp] theorem spareUnlessEmpty_height (pixels : Bytes) :
    (s.spareUnlessEmpty pixels).height = s.height := by
  unfold spareUnlessEmpty; split <;> rfl

/-- Recycling moves buffers only. -/
theorem recycleSnapshot_damage (s : RdpDamageAccumulator)
    (snapshot : RdpDamageSnapshot) :
    (s.recycleSnapshot snapshot).pendingDamage = s.pendingDamage
      ∧ (s.recycleSnapshot snapshot).width = s.width
      ∧ (s.recycleSnapshot snapshot).height = s.height := by
  unfold recycleSnapshot
  repeat' split
  all_goals simp [retain, stagingStale]

/-- A snapshot does not change the geometry. -/
theorem takeSnapshot_size (s : RdpDamageAccumulator) (fails : Bool) :
    (s.takeSnapshot fails).1.width = s.width
      ∧ (s.takeSnapshot fails).1.height = s.height := by
  rcases takeSnapshot_cases s fails with ⟨-, hs⟩ |
    ⟨-, ⟨-, -, hs⟩ | ⟨-, -, hs⟩ | ⟨-, -, scratch, -, hs⟩⟩
  · rw [hs]
    exact ⟨rfl, rfl⟩
  · rw [hs]
    unfold handOver
    dsimp only
    split
    · exact ⟨rfl, rfl⟩
    · exact ⟨rfl, rfl⟩
  · rw [hs]
    exact ⟨rfl, rfl⟩
  · rw [hs]
    exact ⟨rfl, rfl⟩

-- =================================== steps

/-- The pending damage lies inside the current frame. -/
def Bounded (s : RdpDamageAccumulator) : Prop :=
  s.pendingDamage.Inside s.width s.height

theorem Bounded.step (h : s.Bounded) (op : RdpDamageOp) :
    (s.step op).Bounded := by
  unfold Bounded at h ⊢
  cases op with
  | update u faults =>
    dsimp only [RdpDamageAccumulator.step]
    rcases update_damage s u faults with ⟨-, hd, hw, hh⟩ |
      ⟨hw, hh, hfull | ⟨hunion, hw', hh'⟩⟩
    · rw [hd, hw, hh]
      exact h
    · rw [hfull, hw, hh]
      exact RdpDamageRect.inside_full _ _
    · rw [hunion, hw, hh]
      rw [hw', hh'] at h
      exact unionRect_inside h (clipRect_inside u.width u.height
        u.dirtyX u.dirtyY u.dirtyWidth u.dirtyHeight)
  | requestFullSnapshot rendererGeneration =>
    dsimp only [RdpDamageAccumulator.step]
    unfold requestFullSnapshot
    split
    · exact h
    · exact RdpDamageRect.inside_full _ _
  | takeSnapshot fails =>
    dsimp only [RdpDamageAccumulator.step]
    rcases takeSnapshot_cases s fails with ⟨-, hs⟩ |
      ⟨-, ⟨-, -, hs⟩ | ⟨-, -, hs⟩ | ⟨-, -, scratch, -, hs⟩⟩
    · rw [hs]
      exact h
    all_goals
      rw [hs]
      exact RdpDamageRect.inside_default _ _
  | recycleSnapshot snapshot =>
    dsimp only [RdpDamageAccumulator.step]
    obtain ⟨hd, hw, hh⟩ := recycleSnapshot_damage s snapshot
    rw [hd, hw, hh]
    exact h

/-- The pixel is damaged, if it lies in the frame at all. -/
def Covers (s : RdpDamageAccumulator) (x y : Nat) : Prop :=
  x < s.width → y < s.height → s.pendingDamage.Has x y

/-- One step keeps a damaged pixel, or hands it out. -/
theorem Covers.step {x y : Nat} (h : s.Covers x y) (op : RdpDamageOp) :
    (s.step op).Covers x y
      ∨ ∃ fails, op = .takeSnapshot fails
        ∧ (s.takeSnapshot fails).2.valid = true
        ∧ (s.takeSnapshot fails).2.damage.Has x y := by
  cases op with
  | update u faults =>
    refine .inl fun hx hy => ?_
    dsimp only [RdpDamageAccumulator.step] at hx hy ⊢
    rcases update_damage s u faults with ⟨-, hd, hw, hh⟩ |
      ⟨hw, hh, hfull | ⟨hunion, hw', hh'⟩⟩
    · rw [hw] at hx
      rw [hh] at hy
      rw [hd]
      exact h hx hy
    · rw [hw] at hx
      rw [hh] at hy
      rw [hfull, RdpDamageRect.has_full]
      exact ⟨hx, hy⟩
    · rw [hw, ← hw'] at hx
      rw [hh, ← hh'] at hy
      rw [hunion]
      exact unionRect_left (h hx hy)
  | requestFullSnapshot rendererGeneration =>
    refine .inl ?_
    dsimp only [RdpDamageAccumulator.step]
    unfold requestFullSnapshot
    split
    · exact h
    · exact fun hx hy => RdpDamageRect.has_full.mpr ⟨hx, hy⟩
  | takeSnapshot fails =>
    dsimp only [RdpDamageAccumulator.step]
    by_cases hin : x < s.width ∧ y < s.height
    · have hnext : s.nextDamage.Has x y := by
        unfold nextDamage
        split
        · exact RdpDamageRect.has_full.mpr hin
        · exact h hin.1 hin.2
      rcases takeSnapshot_cases s fails with ⟨-, hs⟩ |
        ⟨-, ⟨-, -, hs⟩ | ⟨-, -, hs⟩ | ⟨-, -, scratch, -, hs⟩⟩
      · refine .inl ?_
        rw [hs]
        exact h
      all_goals
        refine .inr ⟨fails, rfl, ?_⟩
        rw [hs]
        exact ⟨rfl, hnext⟩
    · refine .inl fun hx hy => absurd ⟨?_, ?_⟩ hin
      · rwa [(takeSnapshot_size s fails).1] at hx
      · rwa [(takeSnapshot_size s fails).2] at hy
  | recycleSnapshot snapshot =>
    refine .inl ?_
    dsimp only [RdpDamageAccumulator.step]
    unfold Covers
    obtain ⟨hd, hw, hh⟩ := recycleSnapshot_damage s snapshot
    rw [hd, hw, hh]
    exact h

-- ==================================== runs

/-- The valid snapshots that a run takes. -/
def snapshots : RdpDamageAccumulator → List RdpDamageOp →
    List RdpDamageSnapshot
  | _, [] => []
  | s, op :: ops =>
    (match op with
      | .takeSnapshot fails =>
        [(s.takeSnapshot fails).2].filter (·.valid)
      | _ => []) ++ snapshots (s.step op) ops

/-- A damaged pixel stays damaged until some snapshot shows it. -/
theorem Covers.run {x y : Nat} (h : s.Covers x y)
    (ops : List RdpDamageOp) :
    (exec RdpDamageAccumulator.step s ops).Covers x y
      ∨ ∃ snapshot ∈ s.snapshots ops, snapshot.damage.Has x y := by
  induction ops generalizing s with
  | nil => exact .inl h
  | cons op ops ih =>
    rcases h.step op with hnext | ⟨fails, rfl, hvalid, hdamage⟩
    · rcases ih hnext with hend | ⟨snapshot, hmem, hdamage⟩
      · exact .inl hend
      · exact .inr ⟨snapshot, List.mem_append_right _ hmem, hdamage⟩
    · refine .inr ⟨_, List.mem_append_left _ ?_, hdamage⟩
      exact List.mem_filter.mpr ⟨List.mem_singleton_self _, hvalid⟩

/-- In every run: the rectangle of an accepted update, as far as it
lies in the current frame, is pending or was shown by a later valid
snapshot; the pending damage lies in the current frame; and a snapshot
that is not valid leaves the accumulator as it was. -/
theorem damage_kept (limit : Nat) (ops : List RdpDamageOp) :
    (∀ u faults, ((reached limit ops).update u faults).2.accepted = true →
      ∀ later x y, u.clipped.Has x y →
        x < (reached limit (ops ++ .update u faults :: later)).width →
        y < (reached limit (ops ++ .update u faults :: later)).height →
        (reached limit
            (ops ++ .update u faults :: later)).pendingDamage.Has x y
          ∨ ∃ snapshot ∈ (reached limit
              (ops ++ [.update u faults])).snapshots later,
            snapshot.damage.Has x y)
    ∧ (reached limit ops).pendingDamage.Inside (reached limit ops).width
      (reached limit ops).height
    ∧ ∀ fails, ((reached limit ops).takeSnapshot fails).2.valid = false →
        ((reached limit ops).takeSnapshot fails).1
          = reached limit ops := by
  refine ⟨?_, ?_, ?_⟩
  · intro u faults haccepted later x y hclipped hx hy
    unfold reached at haccepted hx hy ⊢
    rw [Lib.exec_append] at hx hy ⊢
    rw [Lib.exec_append]
    generalize exec RdpDamageAccumulator.step (initial limit) ops = s
      at haccepted hx hy ⊢
    have hcovers : (s.update u faults).1.Covers x y :=
      fun _ _ => update_covers haccepted hclipped
    rcases hcovers.run later with hend | hshown
    · exact .inl (hend hx hy)
    · exact .inr hshown
  · have hstep : ∀ (s : RdpDamageAccumulator) op, s.Bounded →
        (s.step op).Bounded := fun _ op h => h.step op
    have hinitial : (initial limit).Bounded :=
      RdpDamageRect.inside_default _ _
    exact Lib.exec_invariant hstep ops hinitial
  · intro fails hvalid
    rcases takeSnapshot_cases (reached limit ops) fails with ⟨-, hs⟩ |
      ⟨-, ⟨-, -, hs⟩ | ⟨-, -, hs⟩ | ⟨-, -, scratch, -, hs⟩⟩
    · exact hs
    all_goals
      rw [hs] at hvalid
      cases hvalid

/-- One wide frame, whose right pixel is still pending when a snapshot
is refused and the desktop is asked for again. -/
theorem damage_kept_pending :
    (reached 100
        ([] ++ .update ⟨some [1, 2, 3, 4, 5, 6, 7, 8], 2, 1, 8, 1, 0, 1,
            1, 1, false⟩ {} ::
          [.requestFullSnapshot 2])).pendingDamage.Has 1 0
      ∨ ∃ snapshot ∈ (reached 100 ([] ++ [.update ⟨some [1, 2, 3, 4, 5,
          6, 7, 8], 2, 1, 8, 1, 0, 1, 1, 1, false⟩ {}])).snapshots
          [.requestFullSnapshot 2],
        snapshot.damage.Has 1 0 :=
  (damage_kept 100 []).1 _ {} (by decide) [.requestFullSnapshot 2] 1 0
    (by decide) (by decide) (by decide)

/-- Two frames, the second one smaller: the right pixel of the first is
neither pending nor shown. -/
theorem damage_outside_smaller :
    ¬ ∀ limit ops u faults,
      ((reached limit ops).update u faults).2.accepted = true →
      ∀ later x y, u.clipped.Has x y →
        (reached limit
            (ops ++ .update u faults :: later)).pendingDamage.Has x y
          ∨ ∃ snapshot ∈ (reached limit
              (ops ++ [.update u faults])).snapshots later,
            snapshot.damage.Has x y := by
  intro h
  have hbad := h 100 [] ⟨some [1, 2, 3, 4, 5, 6, 7, 8], 2, 1, 8, 1, 0, 1,
    1, 1, false⟩ {} (by decide)
    [.update ⟨some [1, 2, 3, 4], 1, 1, 4, 0, 0, 1, 1, 1, false⟩ {}] 1 0
    (by decide)
  exact absurd hbad (by decide)

end RdpDamageAccumulator

end RemoteDesk.Rdp
