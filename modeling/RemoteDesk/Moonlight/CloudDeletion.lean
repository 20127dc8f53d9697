/-
Deleting Moonlight rows in the cloud
(services/MoonlightCloudDeletionPolicy.ets).

A tombstone is built above both rows it replaces, and a row that is kept is
lifted above the tombstone by its reset epoch; the resolver then cannot
choose otherwise (`cloud_deletion_dominates`).
-/
import RemoteDesk.Moonlight.Convergence

namespace RemoteDesk.Moonlight

open Lib

structure AccountSessionLease where
  ownerScopeId : Text
  storeIdentity : Text
deriving DecidableEq, Repr

def moonlightRecordTypeIsPublicCloudData (record : MoonlightRecord) : Bool :=
  record.recordType = .settings || record.recordType = .host
    || record.recordType = .profile

section Deletion

variable {D : Type} [JsNumber D] (P : Platform D)

-- ============================ the builders

/-- A row without its content, but for its hash. -/
def emptied (record : MoonlightRecord) (resetEpoch syncVersion createdAt
    updatedAt : Int) : MoonlightRecord :=
  { cloneRecord record with
    payload := MOONLIGHT_TOMBSTONE_PAYLOAD
    ciphertext := []
    envelopeVersion := 0
    cryptoVersion := 0
    keyVersion := 0
    aadVersion := 0
    resetEpoch
    syncVersion
    createdAt
    updatedAt
    deletedAt := updatedAt }

def withHash (record : MoonlightRecord) : MoonlightRecord :=
  { record with payloadHashSha256 :=
    moonlightRecordPayloadHashSha256 P record }

def moonlightCloudDeletionTombstone (localRow : Option MoonlightRecord)
    (cloud : MoonlightRecord) (nowMs : Int) : Option MoonlightRecord :=
  if ¬ Valid P cloud ∨ !moonlightRecordTypeIsPublicCloudData cloud
      ∨ (∃ row ∈ localRow, ¬ Valid P row ∨ ¬ sameScope row cloud)
      ∨ !isSafeInteger nowMs ∨ nowMs ≤ 0 then none
  else if cloud.deletedAt > 0 ∧ localRow = none then
    some (cloneRecord cloud)
  else
    let maximumSyncVersion := localRow.elim cloud.syncVersion fun row =>
      max row.syncVersion cloud.syncVersion
    if maximumSyncVersion ≥ MAX_SAFE_INTEGER then none
    else
      let createdAt := localRow.elim cloud.createdAt fun row =>
        min row.createdAt cloud.createdAt
      let resetEpoch := localRow.elim cloud.resetEpoch fun row =>
        max row.resetEpoch cloud.resetEpoch
      let updatedAt := max (max (max nowMs createdAt) cloud.updatedAt)
        (localRow.elim 0 (·.updatedAt))
      let tombstone := withHash P (emptied cloud resetEpoch
        (maximumSyncVersion + 1) createdAt updatedAt)
      if Valid P tombstone then some tombstone else none

/-- The last row written to the cloud, or nothing, as a number. -/
def boundaryValue (field : MoonlightRecord → Int)
    (cloudBoundary : Option MoonlightRecord) : Int :=
  cloudBoundary.elim 0 field

def moonlightPreservedLocalAfterCloudDelete (current : MoonlightRecord)
    (cloudBoundary : Option MoonlightRecord) (lease : AccountSessionLease)
    (nowMs sequence : Int) : Option MoonlightRecord :=
  let epoch := max current.resetEpoch
    (boundaryValue (·.resetEpoch) cloudBoundary)
  let baseSyncVersion := max current.syncVersion
    (boundaryValue (·.syncVersion) cloudBoundary)
  if ¬ Valid P current ∨ current.deletedAt > 0
      ∨ current.userId ≠ lease.ownerScopeId
      ∨ !moonlightRecordTypeIsPublicCloudData current
      ∨ (∃ row ∈ cloudBoundary, ¬ Valid P row ∨ ¬ sameScope current row)
      ∨ !isSafeInteger nowMs ∨ nowMs ≤ 0
      ∨ !isSafeInteger sequence ∨ sequence < 0
      ∨ epoch ≥ MAX_SAFE_INTEGER ∨ baseSyncVersion ≥ MAX_SAFE_INTEGER then
    none
  else
    match (moonlightRecordBusinessPayload current
        : Option (List (Text × Json D))), moonlightRecordMeta D current with
    | some business, some previousMeta =>
      match moonlightPayloadWithMeta P business {
          mutationId := (codes "cloud-delete-preserve-"
            ++ integerText nowMs ++ codes "-"
            ++ integerText sequence).take 128
          originId := (codes "moonlight-cloud-delete|"
            ++ lease.storeIdentity).take 128
          baseSyncVersion
          fieldVersions := previousMeta.fieldVersions }
          current.recordType with
      | .error _ => none
      | .ok canonical =>
        let preserved := withHash P { cloneRecord current with
          payload := canonical
          resetEpoch := epoch + 1
          syncVersion := baseSyncVersion + 1
          updatedAt := max (max nowMs current.createdAt)
            current.updatedAt }
        if Valid P preserved then some preserved else none
    | _, _ => none

-- =========================== what is built

/-- A tombstone above a row of its scope. -/
structure Above (t row : MoonlightRecord) : Prop where
  scope : sameScope t row
  deleted : t.deletedAt > 0
  epoch : row.resetEpoch ≤ t.resetEpoch
  version : row.syncVersion < t.syncVersion

variable {P}

/-- A tombstone is the cloud's own, or is above both rows. -/
theorem tombstone_cases {localRow : Option MoonlightRecord}
    {cloud t : MoonlightRecord} {nowMs : Int}
    (h : moonlightCloudDeletionTombstone P localRow cloud nowMs = some t) :
    Valid P t ∧ Valid P cloud ∧ (∀ row ∈ localRow, Valid P row)
      ∧ ((localRow = none ∧ t = cloud ∧ cloud.deletedAt > 0)
        ∨ (Above t cloud ∧ ∀ row ∈ localRow, Above t row)) := by
  unfold moonlightCloudDeletionTombstone at h
  split at h
  · cases h
  rename_i hcheck
  simp only [not_or, not_exists, not_and, not_not, not_le] at hcheck
  obtain ⟨hcloud, -, hlocal, -, hnow⟩ := hcheck
  refine ⟨?_, hcloud, fun row hrow => (hlocal row hrow).1, ?_⟩
  · split at h
    · obtain rfl := Option.some.inj h
      exact hcloud
    dsimp only at h
    split at h
    · cases h
    split at h
    · rename_i hvalid
      obtain rfl := Option.some.inj h
      exact hvalid
    · cases h
  split at h
  · rename_i hcase
    exact .inl ⟨hcase.2, (Option.some.inj h).symm, hcase.1⟩
  refine .inr ?_
  dsimp only at h
  split at h
  · cases h
  split at h
  swap
  · cases h
  obtain rfl := Option.some.inj h
  cases localRow with
  | none =>
    refine ⟨⟨⟨rfl, rfl, rfl, rfl, rfl, rfl⟩, ?_, le_refl _, ?_⟩, ?_⟩
    · show (0 : Int) < max (max (max nowMs _) _) _
      omega
    · show cloud.syncVersion < cloud.syncVersion + 1
      omega
    · intro row hrow
      cases hrow
  | some row =>
    have hscope := (hlocal row rfl).2
    refine ⟨⟨⟨rfl, rfl, rfl, rfl, rfl, rfl⟩, ?_, ?_, ?_⟩, ?_⟩
    · show (0 : Int) < max (max (max nowMs _) _) _
      omega
    · show cloud.resetEpoch ≤ max _ _
      omega
    · show cloud.syncVersion < max _ _ + 1
      omega
    · intro other hother
      obtain rfl := Option.some.inj hother
      refine ⟨sameScope_comm.mp hscope, ?_, ?_, ?_⟩
      · show (0 : Int) < max (max (max nowMs _) _) _
        omega
      · show row.resetEpoch ≤ max _ _
        omega
      · show row.syncVersion < max _ _ + 1
        omega

theorem deletedAt_nonneg {r : MoonlightRecord} (h : Valid P r) :
    0 ≤ r.deletedAt := by
  by_contra hneg
  have hbad : isNonNegativeInteger r.deletedAt = false := by
    unfold isNonNegativeInteger
    simp [hneg]
  unfold Valid moonlightValidateRecord at h
  split at h
  · cases h
  split at h
  · cases h
  split at h
  · rename_i henvelope
    exact henvelope h
  · rename_i henvelope
    rw [not_not] at henvelope
    unfold validateEnvelope at henvelope
    rw [hbad] at henvelope
    simp at henvelope

/-- A row that is kept is live, and of a later epoch than the boundary. -/
theorem preserved_above {current boundary p : MoonlightRecord}
    {lease : AccountSessionLease} {nowMs sequence : Int}
    (h : moonlightPreservedLocalAfterCloudDelete P current (some boundary)
      lease nowMs sequence = some p) :
    Valid P p ∧ sameScope p boundary ∧ p.deletedAt ≤ 0
      ∧ boundary.resetEpoch < p.resetEpoch := by
  unfold moonlightPreservedLocalAfterCloudDelete at h
  dsimp only at h
  split at h
  · cases h
  rename_i hcheck
  simp only [not_or, not_exists, not_and, not_not, not_lt] at hcheck
  obtain ⟨-, hlive, -, -, hboundary, -⟩ := hcheck
  split at h
  swap
  · cases h
  split at h
  · cases h
  split at h
  swap
  · cases h
  rename_i hvalid
  obtain rfl := Option.some.inj h
  refine ⟨hvalid, (hboundary boundary rfl).2, hlive, ?_⟩
  show boundary.resetEpoch < max current.resetEpoch boundary.resetEpoch + 1
  omega

-- ============================== domination

/-- One row is chosen from both sides. -/
def Designates (P : Platform D) (winner other : MoonlightRecord) : Prop :=
  ∀ context,
    (resolveMoonlightRecordConflict P winner other context).record
        = some winner
      ∧ (resolveMoonlightRecordConflict P other winner context).record
        = some winner

theorem compare_above {t row : MoonlightRecord}
    (hepoch : row.resetEpoch = t.resetEpoch)
    (hversion : row.syncVersion < t.syncVersion) :
    compareMoonlightRecordEnvelope t row = 1 := by
  unfold compareMoonlightRecordEnvelope
  rw [if_neg (not_not.mpr hepoch.symm), if_pos (by omega), if_pos hversion]

/-- Beside a tombstone only the order of the rows counts. -/
theorem resolve_beside {t row : MoonlightRecord} (ht : Valid P t)
    (hrow : Valid P row) (hscope : sameScope t row)
    (hdeleted : t.deletedAt > 0)
    (hretry : ¬ (sameContent t row
      ∧ compareMoonlightRecordEnvelope t row = 0))
    (context : Option MoonlightConflictMergeContext) :
    resolveMoonlightRecordConflict P t row context
        = resolveOrder P t row none (moonlightRecordMeta D row) context
      ∧ resolveMoonlightRecordConflict P row t context
        = resolveOrder P row t (moonlightRecordMeta D row) none context := by
  have hretry' : ¬ (sameContent row t
      ∧ compareMoonlightRecordEnvelope row t = 0) := by
    intro ⟨hcontent, henvelope⟩
    rw [compare_swap] at henvelope
    exact hretry ⟨sameContent_symm hcontent, by omega⟩
  have hreused := reused_comm (moonlightRecordMeta D row) none
  rw [reused_none] at hreused
  rw [resolve_eq ht hrow, resolve_eq hrow ht, if_neg (not_not.mpr hscope),
    if_neg (not_not.mpr (sameScope_comm.mp hscope)), if_neg hretry,
    if_neg hretry', recordMeta_tombstone hdeleted, hreused, reused_none]
  exact ⟨rfl, rfl⟩

theorem designates_above {t row : MoonlightRecord} (ht : Valid P t)
    (hrow : Valid P row) (h : Above t row) : Designates P t row := by
  obtain ⟨hscope, hdeleted, hepoch, hversion⟩ := h
  have hretry : ¬ (sameContent t row
      ∧ compareMoonlightRecordEnvelope t row = 0) := by
    rintro ⟨-, henvelope⟩
    rw [compare_eq_zero] at henvelope
    omega
  intro context
  obtain ⟨hleft, hright⟩ := resolve_beside ht hrow hscope hdeleted hretry
    context
  rw [hleft, hright]
  unfold resolveOrder
  by_cases heq : row.resetEpoch = t.resetEpoch
  · have hcompare := compare_above heq hversion
    have hcompare' := compare_swap row t
    rw [hcompare] at hcompare'
    rw [if_neg (not_not.mpr heq.symm), if_neg (not_not.mpr heq)]
    by_cases hrowDeleted : row.deletedAt > 0
    · rw [if_neg fun h => h.2 hrowDeleted, if_neg fun h => h.2 hdeleted,
        if_pos ⟨hdeleted, hrowDeleted⟩, if_neg fun h => h.2 hdeleted,
        if_neg fun h => h.2 hrowDeleted, if_pos ⟨hrowDeleted, hdeleted⟩]
      unfold recordForEnvelopeOrder
      dsimp only
      rw [hcompare, hcompare']
      exact ⟨rfl, rfl⟩
    · rw [if_pos ⟨hdeleted, hrowDeleted⟩, if_neg fun h => hrowDeleted h.1,
        if_pos ⟨hdeleted, hrowDeleted⟩]
      exact ⟨rfl, rfl⟩
  · have hlt : row.resetEpoch < t.resetEpoch := by omega
    rw [if_pos (Ne.symm heq), if_pos heq, if_neg hlt.asymm, if_pos hlt]
    exact ⟨rfl, rfl⟩

/-- A tombstone is chosen over the rows it was built from, and a row kept
after it over the tombstone. -/
theorem cloud_deletion_dominates (P : Platform D)
    {localRow : Option MoonlightRecord} {cloud t : MoonlightRecord}
    {nowMs : Int}
    (h : moonlightCloudDeletionTombstone P localRow cloud nowMs = some t) :
    Designates P t cloud ∧ (∀ row ∈ localRow, Designates P t row)
      ∧ ∀ current lease keptMs sequence p,
        moonlightPreservedLocalAfterCloudDelete P current (some t) lease
            keptMs sequence = some p →
          ∀ context,
            resolveMoonlightRecordConflict P p t context
                = { action := .keepCurrent, reason := .explicitRevival,
                    record := some p }
              ∧ resolveMoonlightRecordConflict P t p context
                = { action := .acceptCandidate, reason := .explicitRevival,
                    record := some p } := by
  obtain ⟨ht, hcloud, hlocal, hcases⟩ := tombstone_cases h
  have hdeleted : t.deletedAt > 0 := by
    rcases hcases with ⟨-, rfl, hd⟩ | ⟨habove, -⟩
    · exact hd
    · exact habove.deleted
  refine ⟨?_, fun row hrow => ?_, ?_⟩
  · rcases hcases with ⟨-, rfl, -⟩ | ⟨habove, -⟩
    · intro context
      have hself := (moonlight_conflicts_converge P ht ht context).2.1
      rw [hself]
      exact ⟨rfl, rfl⟩
    · exact designates_above ht hcloud habove
  · rcases hcases with ⟨rfl, -, -⟩ | ⟨-, habove⟩
    · cases hrow
    · exact designates_above ht (hlocal row hrow) (habove row hrow)
  · intro current lease keptMs sequence p hp context
    obtain ⟨hvalid, hscope, hlive, hepoch⟩ := preserved_above hp
    have hcontent : ¬ sameContent p t := by
      intro hsame
      have hsameDeleted := hsame.2.2.2.1
      omega
    have hzero : p.deletedAt = 0 :=
      le_antisymm hlive (deletedAt_nonneg hvalid)
    have hne : p.resetEpoch ≠ t.resetEpoch := by omega
    have hlt : ¬ t.resetEpoch > p.resetEpoch := by omega
    obtain ⟨hleft, hright⟩ := resolve_beside ht hvalid
      (sameScope_comm.mp hscope) hdeleted
      (fun h => hcontent (sameContent_symm h.1)) context
    rw [hleft, hright]
    unfold resolveOrder
    rw [if_pos hne, if_pos hne.symm, if_neg hlt, if_pos hepoch,
      if_pos ⟨hdeleted, hzero⟩, if_pos ⟨hdeleted, hzero⟩]
    exact ⟨rfl, rfl⟩

end Deletion

theorem cloud_deletion_dominates_profile :
    ∃ t, moonlightCloudDeletionTombstone profilePlatform none favoriteRow 9
        = some t
      ∧ Designates profilePlatform t favoriteRow := by
  have htomb : (moonlightCloudDeletionTombstone profilePlatform none
      favoriteRow 9).isSome = true := by
    decide +kernel
  obtain ⟨t, ht⟩ := Option.isSome_iff_exists.mp htomb
  exact ⟨t, ht, (cloud_deletion_dominates profilePlatform ht).1⟩

end RemoteDesk.Moonlight
