/-
The life cycle of cloud sync (services/CloudSyncLifecyclePolicy.ets).

The durable state and every transition of it. Times and revisions are
integers; a state read from storage may name a phase or a failure that
this version does not know (`other`).
-/
import RemoteDesk.Lib.Json
import RemoteDesk.Sftp.BatchPolicy

namespace RemoteDesk.Cloud

open Lib Sftp

inductive CloudSyncLifecyclePhase where
  | disabled
  | identityValidating
  | registrationPending
  | bootstrapRequired
  | bootstrapInProgress
  | ready
  | uploadInProgress
  | downloadInProgress
  | retryWait
  | conflictBlocked
  | restoreQuarantine
  | recoveryRequired
  | quiescing
  | blocked
  | other (name : Text)
deriving DecidableEq, Repr

inductive CloudSyncFailureKind where
  | none
  | versionConflict
  | emptySnapshot
  | tombstoneCleanup
  | unsafePayload
  | cloudService
  | network
  | indeterminate
  | restorePending
  | noSelection
  | localFinalize
  | cryptoResetPending
  | unknown
  | other (name : Text)
deriving DecidableEq, Repr

inductive CloudSyncDirection where
  | cloudFirst
  | nativeFirst
deriving DecidableEq, Repr

def CloudSyncDirection.name : CloudSyncDirection → Text
  | .cloudFirst => codes "cloudFirst"
  | .nativeFirst => codes "nativeFirst"

inductive CloudAccountBindingState where
  | unbound
  | validating
  | bound
  | blocked
deriving DecidableEq, Repr

structure CloudAccountBinding where
  state : CloudAccountBindingState
  ownerScopeId : Text
  storeIdentity : Text
  generation : Int
  platformIdentityFingerprint : Text
deriving DecidableEq, Repr

structure CloudSyncRetryRecord where
  source : Text
  direction : Text
  tables : List Text
  failedTables : List Text
  attempt : Int
  nextRetryAt : Int
deriving DecidableEq, Repr

def CLOUD_SYNC_MAX_RETRY_ATTEMPTS : Int := 3
def CLOUD_SYNC_DURABLE_STATE_SCHEMA_VERSION : Int := 1

structure CloudSyncDurableState where
  schemaVersion : Int := CLOUD_SYNC_DURABLE_STATE_SCHEMA_VERSION
  ownerScopeId : Text
  storeIdentity : Text
  generation : Int
  revision : Int := 1
  phase : CloudSyncLifecyclePhase
  bootstrapCompleted : Bool
  dirtyTables : List Text := []
  conflictTables : List Text := []
  retryRecords : List CloudSyncRetryRecord := []
  lastSource : Text := []
  lastDirection : Text := []
  lastFailureKind : CloudSyncFailureKind := .none
  failedTables : List Text := []
  updatedAt : Int
deriving DecidableEq, Repr

-- ================================= helpers

def isLifecyclePhase : CloudSyncLifecyclePhase → Bool
  | .other _ => false
  | _ => true

def isFailureKind : CloudSyncFailureKind → Bool
  | .other _ => false
  | _ => true

def safeFailureKind (value : CloudSyncFailureKind) : CloudSyncFailureKind :=
  if isFailureKind value then value else .unknown

def safeRevision (value : Int) : Int := if value < 1 then 1 else value

/-- The values that are not blank, trimmed, each of them once. -/
def uniqueNonBlank (values : List Text) : List Text :=
  values.foldl (fun result value =>
    let value := trim value
    if value.length > 0 ∧ value ∉ result then result ++ [value]
    else result) []

def isAutomaticRetryRecord (record : CloudSyncRetryRecord) : Bool :=
  record.source = codes "automaticPush"
    && record.direction = codes "nativeFirst"
    && record.tables.length > 0 && record.failedTables.length > 0
    && record.attempt ≥ 1
    && record.attempt ≤ CLOUD_SYNC_MAX_RETRY_ATTEMPTS

def safeRetries (records : List CloudSyncRetryRecord) :
    List CloudSyncRetryRecord :=
  (records.map fun record => { record with
    tables := uniqueNonBlank record.tables
    failedTables := uniqueNonBlank record.failedTables
    nextRetryAt := max 0 record.nextRetryAt }).filter isAutomaticRetryRecord

def shouldBlockAutomaticRetry (kind : CloudSyncFailureKind) : Bool :=
  kind = .versionConflict || kind = .emptySnapshot
    || kind = .tombstoneCleanup || kind = .unsafePayload
    || kind = .restorePending

def cloudAccountBindingIsValid (binding : CloudAccountBinding) : Bool :=
  binding.state = .bound && (trim binding.ownerScopeId).length > 0
    && (trim binding.storeIdentity).length > 0 && binding.generation > 0
    && (trim binding.platformIdentityFingerprint).length = 64

def bindingPhase (binding : CloudAccountBinding)
    (transferEnabled bootstrapCompleted : Bool) : CloudSyncLifecyclePhase :=
  if !transferEnabled then .disabled
  else if binding.state = .validating then .identityValidating
  else if binding.state = .blocked then .blocked
  else if !cloudAccountBindingIsValid binding then .disabled
  else if bootstrapCompleted then .ready else .bootstrapRequired

def transientPhase (phase : CloudSyncLifecyclePhase) : Bool :=
  phase = .registrationPending || phase = .bootstrapInProgress
    || phase = .uploadInProgress || phase = .downloadInProgress
    || phase = .quiescing

def settledPhase (state : CloudSyncDurableState) : CloudSyncLifecyclePhase :=
  if state.phase = .disabled ∨ state.phase = .identityValidating
      ∨ state.phase = .blocked ∨ state.phase = .restoreQuarantine then
    state.phase
  else if !state.bootstrapCompleted then .bootstrapRequired
  else if state.conflictTables.length > 0 then .conflictBlocked
  else if state.retryRecords.length > 0 then .retryWait
  else .ready

def intentUpdatePhase (state : CloudSyncDurableState) :
    CloudSyncLifecyclePhase :=
  if state.phase ≠ .ready ∧ state.phase ≠ .retryWait
      ∧ state.phase ≠ .conflictBlocked then
    state.phase
  else settledPhase state

/-- The phase once work is over, under a binding. -/
def rebound (state : CloudSyncDurableState) (binding : CloudAccountBinding)
    (transferEnabled : Bool) (bootstrapCompleted : Bool) :
    CloudSyncLifecyclePhase :=
  if transferEnabled ∧ cloudAccountBindingIsValid binding then
    settledPhase state
  else bindingPhase binding transferEnabled bootstrapCompleted

-- ============================= transitions

def newCloudSyncDurableState (binding : CloudAccountBinding)
    (transferEnabled bootstrapCompleted : Bool) (now : Int) :
    CloudSyncDurableState where
  ownerScopeId := binding.ownerScopeId
  storeIdentity := binding.storeIdentity
  generation := binding.generation
  phase := bindingPhase binding transferEnabled bootstrapCompleted
  bootstrapCompleted
  updatedAt := now

/-- The phase a stored state starts again in. -/
def recoveredPhase (candidate : CloudSyncDurableState)
    (conflictTables : List Text) (retryRecords : List CloudSyncRetryRecord)
    (binding : CloudAccountBinding)
    (transferEnabled bootstrapCompleted : Bool) : CloudSyncLifecyclePhase :=
  let candidateIntegrityValid := isLifecyclePhase candidate.phase
    && candidate.revision ≥ 1 && isFailureKind candidate.lastFailureKind
  let currentPhase := bindingPhase binding transferEnabled bootstrapCompleted
  if candidate.phase = .restoreQuarantine then candidate.phase
  else if candidate.phase = .blocked then
    if currentPhase = .ready then .recoveryRequired else currentPhase
  else if !candidateIntegrityValid ∨ transientPhase candidate.phase
      ∨ candidate.phase = .recoveryRequired then
    .recoveryRequired
  else if transferEnabled ∧ cloudAccountBindingIsValid binding then
    if !bootstrapCompleted then .bootstrapRequired
    else if conflictTables.length > 0 then .conflictBlocked
    else if retryRecords.length > 0 then .retryWait
    else .ready
  else currentPhase

/-- A stored state belongs to this account and store. -/
def belongs (candidate : CloudSyncDurableState)
    (binding : CloudAccountBinding) : Prop :=
  candidate.schemaVersion = CLOUD_SYNC_DURABLE_STATE_SCHEMA_VERSION
    ∧ candidate.ownerScopeId = binding.ownerScopeId
    ∧ candidate.storeIdentity = binding.storeIdentity

instance (candidate : CloudSyncDurableState)
    (binding : CloudAccountBinding) : Decidable (belongs candidate binding) :=
  inferInstanceAs (Decidable (_ ∧ _))

def recoverCloudSyncDurableState (candidate : Option CloudSyncDurableState)
    (binding : CloudAccountBinding)
    (transferEnabled bootstrapCompleted : Bool) (now : Int) :
    CloudSyncDurableState :=
  match candidate with
  | none =>
    newCloudSyncDurableState binding transferEnabled bootstrapCompleted now
  | some candidate =>
    if ¬ belongs candidate binding then
      newCloudSyncDurableState binding transferEnabled bootstrapCompleted
        now
    else
      let conflictTables := uniqueNonBlank candidate.conflictTables
      let retryRecords := safeRetries candidate.retryRecords
      { ownerScopeId := binding.ownerScopeId
        storeIdentity := binding.storeIdentity
        generation := binding.generation
        revision := safeRevision candidate.revision + 1
        phase := recoveredPhase candidate conflictTables retryRecords
          binding transferEnabled bootstrapCompleted
        bootstrapCompleted
        dirtyTables := uniqueNonBlank candidate.dirtyTables
        conflictTables
        retryRecords
        lastSource := candidate.lastSource
        lastDirection := candidate.lastDirection
        lastFailureKind := safeFailureKind candidate.lastFailureKind
        failedTables := uniqueNonBlank candidate.failedTables
        updatedAt := now }

def cloudSyncDurableStateWithIntents (state : CloudSyncDurableState)
    (dirtyTables conflictTables : List Text)
    (retryRecords : List CloudSyncRetryRecord) (now : Int) :
    CloudSyncDurableState :=
  let next := { state with
    revision := state.revision + 1
    dirtyTables := uniqueNonBlank dirtyTables
    conflictTables := uniqueNonBlank conflictTables
    retryRecords := retryRecords.filter isAutomaticRetryRecord
    updatedAt := now }
  { next with phase := intentUpdatePhase next }

def cloudSyncOperationStarted (state : CloudSyncDurableState)
    (source : Text) (direction : CloudSyncDirection) (now : Int) :
    CloudSyncDurableState :=
  { state with
    revision := state.revision + 1
    phase :=
      if direction = .nativeFirst then .uploadInProgress
      else if state.bootstrapCompleted then .downloadInProgress
      else .bootstrapInProgress
    lastSource := source
    lastDirection := direction.name
    lastFailureKind := .none
    failedTables := []
    updatedAt := now }

/-- How an operation ended. -/
structure OperationEnd where
  ok : Bool
  failedTables : List Text
  rollbackFailed : Bool
  failureKind : CloudSyncFailureKind
  bootstrapCompleted : Bool
deriving DecidableEq, Repr

def cloudSyncOperationFinished (state : CloudSyncDurableState)
    (result : OperationEnd) (now : Int) : CloudSyncDurableState :=
  let failed := uniqueNonBlank result.failedTables
  let conflicts :=
    if !result.ok ∧ shouldBlockAutomaticRetry result.failureKind then
      failed.foldl (fun conflicts table =>
        if table ∉ conflicts then conflicts ++ [table] else conflicts)
        state.conflictTables
    else state.conflictTables
  let next := { state with
    revision := state.revision + 1
    bootstrapCompleted := result.bootstrapCompleted
    conflictTables := conflicts
    lastFailureKind := result.failureKind
    failedTables := failed
    updatedAt := now }
  { next with phase :=
      if result.rollbackFailed then .blocked
      else if !result.ok ∧ result.failureKind = .indeterminate then
        .recoveryRequired
      else if !result.ok ∧ shouldBlockAutomaticRetry result.failureKind then
        .conflictBlocked
      else if !result.ok then
        if result.bootstrapCompleted then .retryWait else .bootstrapRequired
      else settledPhase next }

def cloudSyncExternalRecoveryRequired (state : CloudSyncDurableState)
    (failedTables : List Text) (now : Int) : CloudSyncDurableState :=
  { state with
    revision := state.revision + 1
    phase := .recoveryRequired
    lastFailureKind := .unknown
    failedTables := uniqueNonBlank failedTables
    updatedAt := now }

def cloudSyncExternalRecoverySettled (state : CloudSyncDurableState)
    (binding : CloudAccountBinding) (transferEnabled : Bool)
    (restoredTables : List Text) (now : Int) : CloudSyncDurableState :=
  let restored := uniqueNonBlank restoredTables
  if state.phase ≠ .recoveryRequired ∨ state.lastFailureKind ≠ .unknown
      ∨ state.failedTables.length = 0 then
    state
  else
    let remaining := state.failedTables.filter (· ∉ restored)
    if remaining.length = state.failedTables.length then state
    else
      let next := { state with
        revision := state.revision + 1
        failedTables := remaining
        updatedAt := now }
      if remaining.length = 0 then
        let next := { next with lastFailureKind := .none }
        let phase := rebound next binding transferEnabled
          state.bootstrapCompleted
        { next with phase }
      else next

def cloudSyncIndeterminateSettled (state : CloudSyncDurableState)
    (binding : CloudAccountBinding) (transferEnabled : Bool) (now : Int) :
    CloudSyncDurableState :=
  { state with
    revision := state.revision + 1
    updatedAt := now
    phase := rebound state binding transferEnabled state.bootstrapCompleted }

def cloudSyncBootstrapCompleted (state : CloudSyncDurableState)
    (now : Int) : CloudSyncDurableState :=
  let next := { state with
    revision := state.revision + 1
    bootstrapCompleted := true
    failedTables := []
    lastFailureKind := .none
    updatedAt := now }
  { next with phase := settledPhase next }

def cloudSyncRestoreQuarantined (state : CloudSyncDurableState)
    (now : Int) : CloudSyncDurableState :=
  { state with
    revision := state.revision + 1
    phase := .restoreQuarantine
    updatedAt := now }

def cloudSyncRestoreReleased
    (quarantinedState stateBeforeRestore : CloudSyncDurableState)
    (now : Int) : CloudSyncDurableState :=
  { stateBeforeRestore with
    revision := quarantinedState.revision + 1
    updatedAt := now }

def cloudSyncQuiescing (state : CloudSyncDurableState) (now : Int) :
    CloudSyncDurableState :=
  { state with
    revision := state.revision + 1
    phase := .quiescing
    updatedAt := now }

def cloudSyncQuiesced (state : CloudSyncDurableState)
    (binding : CloudAccountBinding) (transferEnabled : Bool) (now : Int) :
    CloudSyncDurableState :=
  { state with
    revision := state.revision + 1
    updatedAt := now
    phase := rebound state binding transferEnabled state.bootstrapCompleted }

def cloudSyncRestoreResolutionAttemptFinished
    (state : CloudSyncDurableState) (result : OperationEnd) (now : Int) :
    CloudSyncDurableState :=
  let finished := cloudSyncOperationFinished state result now
  if finished.phase = .blocked ∨ finished.phase = .recoveryRequired then
    finished
  else cloudSyncRestoreQuarantined finished now

def cloudSyncRestoreResolutionCompleted (state : CloudSyncDurableState)
    (now : Int) : CloudSyncDurableState :=
  let next := { state with
    revision := state.revision + 1
    bootstrapCompleted := true
    lastFailureKind := .none
    failedTables := []
    updatedAt := now
    phase := .ready }
  { next with phase := settledPhase next }

-- =================================== gates

def cloudSyncAutomaticUploadAllowed (state : CloudSyncDurableState) : Bool :=
  state.bootstrapCompleted && (state.phase = .ready
    || state.phase = .retryWait || state.phase = .conflictBlocked)

def cloudSyncManualUploadAllowed (state : CloudSyncDurableState)
    (resolvingRestore : Bool) : Bool :=
  cloudSyncAutomaticUploadAllowed state
    || (resolvingRestore && state.phase = .restoreQuarantine)

def cloudSyncDownloadAllowed (state : CloudSyncDurableState) : Bool :=
  state.phase = .bootstrapRequired || state.phase = .ready
    || state.phase = .retryWait || state.phase = .conflictBlocked
    || state.phase = .recoveryRequired

def cloudSyncManualDownloadAllowed (state : CloudSyncDurableState)
    (resolvingRestore : Bool) : Bool :=
  cloudSyncDownloadAllowed state
    || (resolvingRestore && state.phase = .restoreQuarantine)

end RemoteDesk.Cloud
