/-
Which of two Moonlight rows stays
(services/MoonlightRecordConflictPolicy.ets).

A path such as `video.fps` is its segments; a value found there is a JSON
tree, and a copy of one is the tree itself.
-/
import RemoteDesk.Moonlight.RecordPolicy

namespace RemoteDesk.Moonlight

open Lib

inductive MoonlightConflictAction where
  | keepCurrent
  | acceptCandidate
  | writeMerged
  | quarantineCandidate
  | quarantineBoth
deriving DecidableEq, Repr

inductive MoonlightConflictReason where
  | identicalRetry
  | newerEnvelope
  | staleEnvelope
  | tombstoneWins
  | explicitRevival
  | concurrentFieldsMerged
  | mutationReuseCorruption
  | sameEnvelopeContentMismatch
  | scopeMismatch
  | hostIdentityConflict
  | profileIdentityConflict
  | trustConflict
  | secretConflict
  | invalidCurrent
  | invalidCandidate
  | invalidMergeContext
  | mergedRowInvalid
deriving DecidableEq, Repr

structure MoonlightConflictMergeContext where
  mutationId : Text
  originId : Text
  updatedAt : Int
deriving DecidableEq, Repr

structure MoonlightConflictDecision where
  action : MoonlightConflictAction
  reason : MoonlightConflictReason
  record : Option MoonlightRecord := none
  conflictedPaths : List Text := []
deriving DecidableEq, Repr

-- =============================== envelopes

/-- `resetEpoch > syncVersion > updatedAt`. -/
def compareMoonlightRecordEnvelope (left right : MoonlightRecord) : Int :=
  if left.resetEpoch ≠ right.resetEpoch then
    if left.resetEpoch > right.resetEpoch then 1 else -1
  else if left.syncVersion ≠ right.syncVersion then
    if left.syncVersion > right.syncVersion then 1 else -1
  else if left.updatedAt ≠ right.updatedAt then
    if left.updatedAt > right.updatedAt then 1 else -1
  else 0

def sameScope (left right : MoonlightRecord) : Prop :=
  left.id = right.id ∧ left.userId = right.userId
    ∧ left.recordType = right.recordType ∧ left.ownerId = right.ownerId
    ∧ left.ownerType = right.ownerType ∧ left.secretKind = right.secretKind

instance (left right : MoonlightRecord) : Decidable (sameScope left right) :=
  inferInstanceAs (Decidable (_ ∧ _))

def sameContent (left right : MoonlightRecord) : Prop :=
  left.payload = right.payload ∧ left.ciphertext = right.ciphertext
    ∧ left.payloadHashSha256 = right.payloadHashSha256
    ∧ left.deletedAt = right.deletedAt
    ∧ left.schemaVersion = right.schemaVersion
    ∧ left.envelopeVersion = right.envelopeVersion
    ∧ left.cryptoVersion = right.cryptoVersion
    ∧ left.keyVersion = right.keyVersion ∧ left.aadVersion = right.aadVersion

instance (left right : MoonlightRecord) :
    Decidable (sameContent left right) :=
  inferInstanceAs (Decidable (_ ∧ _))

def recordForEnvelopeOrder (current candidate : MoonlightRecord)
    (reasonWhenCandidate reasonWhenCurrent : MoonlightConflictReason) :
    MoonlightConflictDecision :=
  let order := compareMoonlightRecordEnvelope candidate current
  if order > 0 then
    { action := .acceptCandidate, reason := reasonWhenCandidate,
      record := some (cloneRecord candidate) }
  else if order < 0 then
    { action := .keepCurrent, reason := reasonWhenCurrent,
      record := some (cloneRecord current) }
  else
    { action := .quarantineBoth, reason := .sameEnvelopeContentMismatch }

section Resolver

variable {D : Type} [JsNumber D]

-- ================================ identity

def textField (values : List (Text × Json D)) (key : String) : Text :=
  match Members.lookup (codes key) values with
  | some (.str text) => text
  | _ => []

def identityConflict (current candidate : MoonlightRecord)
    (currentPayload candidatePayload : List (Text × Json D)) :
    Option MoonlightConflictReason :=
  let differs (key : String) :=
    textField currentPayload key ≠ textField candidatePayload key
  if current.recordType = .host ∧ differs "serverUuid" then
    some .hostIdentityConflict
  else if current.recordType = .profile
      ∧ (differs "hostId" ∨ differs "appId") then
    some .profileIdentityConflict
  else if current.recordType = .trust
      ∧ differs "serverCertificateSha256" then
    some .trustConflict
  else if current.recordType = .secret ∧ ¬ sameContent current candidate then
    some .secretConflict
  else none

-- =================================== paths

def segmentsOf (path : Text) : List Text := path.splitOn 46

def getAt : List Text → Json D → Option (Json D)
  | [], value => some value
  | key :: rest, .obj members =>
    match Members.lookup key members with
    | none => none
    | some child => getAt rest child
  | _ :: _, _ => none

def setAt (value : Json D) : List Text → Json D → Option (Json D)
  | [], _ => none
  | [key], .obj members => some (.obj (Members.put key value members))
  | key :: rest, .obj members =>
    match Members.lookup key members with
    | none => none
    | some child => (setAt value rest child).map fun child =>
      .obj (Members.put key child members)
  | _ :: _, _ => none

attribute [local simp] getAt setAt

def valueAtPath (source : List (Text × Json D)) (path : Text) :
    Option (Json D) :=
  getAt (segmentsOf path) (.obj source)

/-- A missing field of the settings has the value it had before there was
one. -/
def compatibilityValueAtPath (source : List (Text × Json D)) (path : Text)
    (recordType : MoonlightRecordType) : Option (Json D) :=
  match valueAtPath source path with
  | some direct => some direct
  | none =>
    if recordType ≠ .settings then none
    else if path = codes "input.controlMode" then
      match valueAtPath source (codes "input.touchMode") with
      | some (.str mode) =>
        if mode = codes "absoluteMouse" ∨ mode = codes "relativeMouse"
        then some (.str (codes "trackpad"))
        else some (.str (codes "adaptive"))
      | _ => some (.str (codes "adaptive"))
    else if path = codes "video.adaptiveResolution" then
      match valueAtPath source (codes "video.resolutionMode") with
      | some (.str mode) =>
        if mode = codes "host" then some (.str (codes "host"))
        else some (.str (codes "off"))
      | _ => some (.str (codes "off"))
    else none

def setValueAtPath (target : List (Text × Json D)) (path : Text)
    (value : Json D) : Option (List (Text × Json D)) :=
  match setAt value (segmentsOf path) (.obj target) with
  | some (.obj members) => some members
  | _ => none

def fieldVersion (md : MoonlightRecordMeta) (path : Text) : Int :=
  (Members.lookup path md.fieldVersions).getD 0

/-- The paths of both sides, in order. -/
def unionFieldPaths (left right : MoonlightRecordMeta) : List Text :=
  let paths := Members.keys left.fieldVersions
  (paths ++ (Members.keys right.fieldVersions).filter fun path =>
    path ∉ paths).insertionSort (· ≤ ·)

-- ================================= merging

/-- One of two rows, as the merge sees it. -/
structure Side (D : Type) where
  record : MoonlightRecord
  payload : List (Text × Json D)
  fieldMeta : MoonlightRecordMeta

structure Merged (D : Type) where
  payload : List (Text × Json D)
  versions : List (Text × Int) := []
  conflicts : List Text := []

/-- The loop over the paths; `order` compares the candidate with the
current row. -/
def mergePaths (current candidate : Side D) (order : Int) :
    Merged D → List Text → Option (Merged D)
  | merged, [] => some merged
  | merged, path :: rest =>
    let currentVersion := fieldVersion current.fieldMeta path
    let candidateVersion := fieldVersion candidate.fieldMeta path
    match compatibilityValueAtPath current.payload path
        current.record.recordType,
      compatibilityValueAtPath candidate.payload path
        candidate.record.recordType with
    | some currentValue, some candidateValue =>
      let conflict := currentValue.text ≠ candidateValue.text
        ∧ currentVersion > current.fieldMeta.baseSyncVersion
        ∧ candidateVersion > candidate.fieldMeta.baseSyncVersion
      let useCandidate := candidateVersion > currentVersion
        ∨ (candidateVersion = currentVersion ∧ order > 0)
      match setValueAtPath merged.payload path
          (if useCandidate then candidateValue else currentValue) with
      | none => none
      | some payload => mergePaths current candidate order {
          payload
          versions := Members.put path
            (max currentVersion candidateVersion) merged.versions
          conflicts :=
            if conflict then merged.conflicts ++ [path]
            else merged.conflicts } rest
    | _, _ => none

def quarantineBoth (reason : MoonlightConflictReason) :
    MoonlightConflictDecision :=
  { action := .quarantineBoth, reason }

/-- The row that is written, but for its hash. -/
def mergedRow (current candidate : MoonlightRecord) (order : Int)
    (payload : Text) (updatedAt : Int) : MoonlightRecord :=
  { cloneRecord (if order > 0 then candidate else current) with
    payload
    ciphertext := []
    resetEpoch := current.resetEpoch
    syncVersion := max current.syncVersion candidate.syncVersion + 1
    createdAt := min current.createdAt candidate.createdAt
    updatedAt
    deletedAt := 0 }

def mergeConcurrentMutableRecord (P : Platform D) (current candidate : Side D)
    (context : Option MoonlightConflictMergeContext) :
    MoonlightConflictDecision :=
  match context with
  | none => quarantineBoth .invalidMergeContext
  | some context =>
    if !isSafeInteger context.updatedAt
        ∨ context.updatedAt < current.record.updatedAt
        ∨ context.updatedAt < candidate.record.updatedAt
        ∨ max current.record.syncVersion candidate.record.syncVersion
          ≥ MAX_SAFE_INTEGER then
      quarantineBoth .invalidMergeContext
    else
      let order := compareMoonlightRecordEnvelope candidate.record
        current.record
      if order = 0 then quarantineBoth .sameEnvelopeContentMismatch
      else
        let winner := if order > 0 then candidate else current
        match mergePaths current candidate order
            { payload := winner.payload }
            (unionFieldPaths current.fieldMeta candidate.fieldMeta) with
        | none => quarantineBoth .mergedRowInvalid
        | some result =>
          match moonlightPayloadWithMeta P result.payload {
              mutationId := context.mutationId
              originId := context.originId
              baseSyncVersion := max current.record.syncVersion
                candidate.record.syncVersion
              fieldVersions := result.versions }
              current.record.recordType with
          | .error _ => quarantineBoth .invalidMergeContext
          | .ok canonical =>
            let row := mergedRow current.record candidate.record order
              canonical context.updatedAt
            let merged := { row with payloadHashSha256 :=
              moonlightRecordPayloadHashSha256 P row }
            if Valid P merged then
              { action := .writeMerged,
                reason := .concurrentFieldsMerged,
                record := some merged,
                conflictedPaths := result.conflicts }
            else quarantineBoth .mergedRowInvalid

-- =============================== resolving

/-- The branches for two live rows of one reset epoch and scope. -/
def resolveLive (P : Platform D) (current candidate : MoonlightRecord)
    (currentMeta candidateMeta : Option MoonlightRecordMeta)
    (context : Option MoonlightConflictMergeContext) :
    MoonlightConflictDecision :=
  match moonlightRecordBusinessPayload current,
      moonlightRecordBusinessPayload candidate, currentMeta,
      candidateMeta with
  | some currentPayload, some candidatePayload, some currentMeta,
      some candidateMeta =>
        match identityConflict current candidate currentPayload
            candidatePayload with
        | some reason => quarantineBoth reason
        | none =>
          if sameContent current candidate then
            recordForEnvelopeOrder current candidate .newerEnvelope
              .staleEnvelope
          else if currentMeta.mutationId ≠ candidateMeta.mutationId
              ∧ currentMeta.baseSyncVersion
                = candidateMeta.baseSyncVersion
              ∧ (current.recordType = .settings
                ∨ current.recordType = .profile) then
            mergeConcurrentMutableRecord P
              ⟨current, currentPayload, currentMeta⟩
              ⟨candidate, candidatePayload, candidateMeta⟩ context
          else recordForEnvelopeOrder current candidate .newerEnvelope
            .staleEnvelope
  | _, _, _, _ => quarantineBoth .sameEnvelopeContentMismatch

/-- The branches after the metadata was compared. -/
def resolveOrder (P : Platform D) (current candidate : MoonlightRecord)
    (currentMeta candidateMeta : Option MoonlightRecordMeta)
    (context : Option MoonlightConflictMergeContext) :
    MoonlightConflictDecision :=
  if current.resetEpoch ≠ candidate.resetEpoch then
    if candidate.resetEpoch > current.resetEpoch then
      { action := .acceptCandidate
        reason := if current.deletedAt > 0 ∧ candidate.deletedAt = 0
          then .explicitRevival else .newerEnvelope
        record := some (cloneRecord candidate) }
    else
      { action := .keepCurrent
        reason := if candidate.deletedAt > 0 ∧ current.deletedAt = 0
          then .explicitRevival else .staleEnvelope
        record := some (cloneRecord current) }
  else if current.deletedAt > 0 ∧ ¬ candidate.deletedAt > 0 then
    { action := .keepCurrent, reason := .tombstoneWins,
      record := some (cloneRecord current) }
  else if candidate.deletedAt > 0 ∧ ¬ current.deletedAt > 0 then
    { action := .acceptCandidate, reason := .tombstoneWins,
      record := some (cloneRecord candidate) }
  else if current.deletedAt > 0 ∧ candidate.deletedAt > 0 then
    recordForEnvelopeOrder current candidate .newerEnvelope .staleEnvelope
  else resolveLive P current candidate currentMeta candidateMeta context

def resolveMoonlightRecordConflict (P : Platform D)
    (current candidate : MoonlightRecord)
    (context : Option MoonlightConflictMergeContext) :
    MoonlightConflictDecision :=
  if ¬ Valid P current then
    if Valid P candidate then
      { action := .acceptCandidate, reason := .invalidCurrent,
        record := some (cloneRecord candidate) }
    else quarantineBoth .invalidCurrent
  else if ¬ Valid P candidate then
    { action := .quarantineCandidate, reason := .invalidCandidate,
      record := some (cloneRecord current) }
  else if ¬ sameScope current candidate then quarantineBoth .scopeMismatch
  else if sameContent current candidate
      ∧ current.resetEpoch = candidate.resetEpoch
      ∧ current.syncVersion = candidate.syncVersion
      ∧ current.updatedAt = candidate.updatedAt then
    { action := .keepCurrent, reason := .identicalRetry,
      record := some (cloneRecord current) }
  else
    let currentMeta := moonlightRecordMeta D current
    let candidateMeta := moonlightRecordMeta D candidate
    match currentMeta, candidateMeta with
    | some currentMeta, some candidateMeta =>
      if currentMeta.mutationId = candidateMeta.mutationId then
        if ¬ sameContent current candidate then
          quarantineBoth .mutationReuseCorruption
        else recordForEnvelopeOrder current candidate .identicalRetry
          .identicalRetry
      else resolveOrder P current candidate (some currentMeta)
        (some candidateMeta) context
    | currentMeta, candidateMeta =>
      resolveOrder P current candidate currentMeta candidateMeta context

end Resolver

end RemoteDesk.Moonlight
