/-
The input bridge of a Moonlight session (moonlight/input/
MoonlightInputBridge.cpp).

The bridge admits the events of one identity at a time, in the order of each
source lane, and closes behind a boundary when the focus is lost or the
session stops. What it asks of others is an argument of each operation: the
owner gate's answer, and the port's where the gate let the operation run
(nothing is a gate that did not). Numbers are 64 bit and only compared;
counters saturate.
-/
import RemoteDesk.Lib.Runs

namespace RemoteDesk.Moonlight.Input

-- ================================== values

structure MoonlightSessionKey where
  sessionId : Nat := 0
  generation : Nat := 0
  ownerToken : Nat := 0
deriving DecidableEq, Repr

def MoonlightSessionKey.valid (key : MoonlightSessionKey) : Bool :=
  key.sessionId ≠ 0 && key.generation ≠ 0 && key.ownerToken ≠ 0

structure MoonlightInputIdentity where
  key : MoonlightSessionKey := {}
  inputGeneration : Nat := 0
deriving DecidableEq, Repr

def MoonlightInputIdentity.valid (identity : MoonlightInputIdentity) : Bool :=
  identity.key.valid && identity.inputGeneration ≠ 0

inductive MoonlightInputSource where
  | invalid
  | physicalKeyboard
  | onScreenKeyboard
  | mouse
  | touchscreen
  | touchpad
  | gameController
  | virtualController
deriving DecidableEq, Repr

inductive MoonlightInputCommandKind where
  | invalid
  | keyboard
  | text
  | relativePointer
  | absolutePointer
  | pointerButton
  | verticalScroll
  | horizontalScroll
  | touch
  | controller
deriving DecidableEq, Repr

structure MoonlightInputEvent where
  identity : MoonlightInputIdentity
  deviceId : Nat
  source : MoonlightInputSource
  sourceGeneration : Nat
  sourceSequence : Nat
  monotonicTimestampUs : Nat
  kind : MoonlightInputCommandKind
  lifecycleRelease : Bool
  commandVersion : Nat
  payloadSize : Nat
  payload : List UInt8
deriving DecidableEq, Repr

inductive MoonlightInputPortStatus where
  | accepted
  | backpressure
  | unsupported
  | failed
deriving DecidableEq, Repr

inductive MoonlightInputDispatchStatus where
  | accepted
  | invalidRequest
  | invalidState
  | staleOwner
  | staleEvent
  | duplicate
  | sourceCapacity
  | backpressure
  | unsupported
  | portFailure
deriving DecidableEq, Repr

inductive MoonlightInputState where
  | idle
  | active
  | suspended
  | releasePending
  | stopped
  | cleaned
deriving DecidableEq, Repr

inductive MoonlightInputSuspendReason where
  | none
  | focusLost
  | stop
deriving DecidableEq, Repr

inductive MoonlightInputControlStatus where
  | applied
  | alreadyApplied
  | invalidRequest
  | invalidState
  | stale
  | ownerUnavailable
  | portFailure
deriving DecidableEq, Repr

structure MoonlightInputLimits where
  sourceLaneCapacity : Nat := 16
  maximumPayloadBytes : Nat := 64
deriving DecidableEq, Repr

structure MoonlightInputFlushRequest where
  identity : MoonlightInputIdentity
  reason : MoonlightInputSuspendReason
  operationGeneration : Nat
  monotonicTimestampUs : Nat
deriving DecidableEq, Repr

structure MoonlightInputRecoveryResetRequest where
  identity : MoonlightInputIdentity
  operationGeneration : Nat
  monotonicTimestampUs : Nat
  activeGamepadMask : Nat
  controllerSlots : Nat
deriving DecidableEq, Repr

def MoonlightInputRecoveryResetRequest.valid
    (request : MoonlightInputRecoveryResetRequest) : Bool :=
  request.identity.valid && request.operationGeneration ≠ 0
    && request.monotonicTimestampUs ≠ 0 && request.controllerSlots ≤ 16
    && (request.controllerSlots ≠ 0 || request.activeGamepadMask = 0)
    && (request.controllerSlots = 16
      || request.activeGamepadMask < 2 ^ request.controllerSlots)

structure MoonlightInputControlResult where
  status : MoonlightInputControlStatus
  identity : MoonlightInputIdentity
  operationGeneration : Nat
deriving DecidableEq, Repr

def knownSource (source : MoonlightInputSource) : Bool :=
  source ≠ .invalid

def knownKind (kind : MoonlightInputCommandKind) : Bool := kind ≠ .invalid

def pointerKind : MoonlightInputCommandKind → Bool
  | .relativePointer | .absolutePointer | .pointerButton | .verticalScroll
  | .horizontalScroll => true
  | _ => false

def sourceSupportsKind (source : MoonlightInputSource)
    (kind : MoonlightInputCommandKind) : Bool :=
  match source with
  | .physicalKeyboard | .onScreenKeyboard => kind = .keyboard || kind = .text
  | .mouse => pointerKind kind
  | .touchscreen =>
    kind = .touch || kind = .absolutePointer || kind = .pointerButton
  | .touchpad => pointerKind kind || kind = .touch
  | .gameController | .virtualController => kind = .controller
  | .invalid => false

-- ================================== bridge

/-- A lane that is occupied. -/
structure SourceLane where
  deviceId : Nat
  source : MoonlightInputSource
  sourceGeneration : Nat
  lastSequence : Nat
  lastTimestampUs : Nat
deriving DecidableEq, Repr

def saturatingIncrement (value : Nat) : Nat :=
  if value = 2 ^ 64 - 1 then value else value + 1

structure MoonlightInputCounters where
  acceptedEvents : Nat := 0
  duplicateEvents : Nat := 0
  staleEvents : Nat := 0
  invalidEvents : Nat := 0
  ownerRejectedEvents : Nat := 0
  backpressureEvents : Nat := 0
  unsupportedEvents : Nat := 0
  portFailures : Nat := 0
  neutralFlushes : Nat := 0
  neutralFlushFailures : Nat := 0
  recoveryResets : Nat := 0
  recoveryResetBackpressure : Nat := 0
  recoveryResetFailures : Nat := 0
deriving DecidableEq, Repr

/-- The counter of a dispatch that ended with `status`. -/
def MoonlightInputCounters.count (counters : MoonlightInputCounters) :
    MoonlightInputDispatchStatus → MoonlightInputCounters
  | .accepted => { counters with
      acceptedEvents := saturatingIncrement counters.acceptedEvents }
  | .invalidRequest => { counters with
      invalidEvents := saturatingIncrement counters.invalidEvents }
  | .invalidState => counters
  | .staleOwner => { counters with
      ownerRejectedEvents := saturatingIncrement counters.ownerRejectedEvents }
  | .staleEvent => { counters with
      staleEvents := saturatingIncrement counters.staleEvents }
  | .duplicate => { counters with
      duplicateEvents := saturatingIncrement counters.duplicateEvents }
  | .sourceCapacity | .backpressure => { counters with
      backpressureEvents := saturatingIncrement counters.backpressureEvents }
  | .unsupported => { counters with
      unsupportedEvents := saturatingIncrement counters.unsupportedEvents }
  | .portFailure => { counters with
      portFailures := saturatingIncrement counters.portFailures }

/-- The occupied lanes are the first ones of the array: a lane is freed only
with all others. -/
structure MoonlightInputBridge where
  limits : MoonlightInputLimits
  sourceLanes : List SourceLane := []
  identity : MoonlightInputIdentity := {}
  lastCleanedIdentity : MoonlightInputIdentity := {}
  highWaterIdentity : MoonlightInputIdentity := {}
  state : MoonlightInputState := .idle
  suspendReason : MoonlightInputSuspendReason := .none
  lastOperationGeneration : Nat := 0
  lastBoundaryTimestampUs : Nat := 0
  latestEventTimestampUs : Nat := 0
  lastRecoveryResetGeneration : Nat := 0
  counters : MoonlightInputCounters := {}
deriving DecidableEq, Repr

namespace MoonlightInputBridge

variable (b : MoonlightInputBridge)

/-- `MoonlightInputBridge::create`, for limits that it takes. -/
def create (limits : MoonlightInputLimits) : MoonlightInputBridge := { limits }

def ownsLane (event : MoonlightInputEvent) (lane : SourceLane) : Bool :=
  lane.deviceId = event.deviceId && lane.source = event.source

def findLane (event : MoonlightInputEvent) : Option SourceLane :=
  b.sourceLanes.find? (ownsLane event)

/-- The lane of an event that was accepted. -/
def eventLane (event : MoonlightInputEvent) : SourceLane :=
  { deviceId := event.deviceId
    source := event.source
    sourceGeneration := event.sourceGeneration
    lastSequence := event.sourceSequence
    lastTimestampUs := event.monotonicTimestampUs }

/-- The lane is written over, or the first free one is taken. -/
def putLane (event : MoonlightInputEvent) : List SourceLane → List SourceLane
  | [] => [eventLane event]
  | lane :: lanes =>
    if ownsLane event lane then eventLane event :: lanes
    else lane :: putLane event lanes

def resetSessionCounters : MoonlightInputBridge :=
  { b with
    sourceLanes := []
    lastBoundaryTimestampUs := 0
    latestEventTimestampUs := 0
    lastRecoveryResetGeneration := 0
    counters := {} }

def identityIsNewer (requested : MoonlightInputIdentity) : Bool :=
  if !b.highWaterIdentity.valid then true
  else if requested.key.ownerToken > b.highWaterIdentity.key.ownerToken then
    true
  else requested.key.ownerToken = b.highWaterIdentity.key.ownerToken
    && requested.key.sessionId = b.highWaterIdentity.key.sessionId
    && requested.key.generation = b.highWaterIdentity.key.generation
    && requested.inputGeneration > b.highWaterIdentity.inputGeneration

section Control

variable (requested : MoonlightInputIdentity) (operationGeneration : Nat)

/-- A bridge and what is answered. -/
def answer (status : MoonlightInputControlStatus) :
    MoonlightInputBridge × MoonlightInputControlResult :=
  (b, ⟨status, requested, operationGeneration⟩)

/-- The bridge with the operation's generation. -/
def withGeneration : MoonlightInputBridge :=
  { b with lastOperationGeneration := operationGeneration }

def activate (owner : Bool) :
    MoonlightInputBridge × MoonlightInputControlResult :=
  if !requested.valid || operationGeneration = 0 then
    b.answer requested operationGeneration .invalidRequest
  else if b.identity = requested ∧ b.state = .active then
    if operationGeneration < b.lastOperationGeneration then
      b.answer requested operationGeneration .stale
    else (b.withGeneration operationGeneration).answer requested
      operationGeneration .alreadyApplied
  else if b.state ≠ .idle ∧ b.state ≠ .cleaned then
    b.answer requested operationGeneration .invalidState
  else if !b.identityIsNewer requested then
    b.answer requested operationGeneration .stale
  else if !owner then
    b.answer requested operationGeneration .ownerUnavailable
  else answer (resetSessionCounters { b with
      identity := requested
      highWaterIdentity := requested
      state := .active
      suspendReason := .none
      lastOperationGeneration := operationGeneration })
    requested operationGeneration .applied

def resetRemoteState (request : MoonlightInputRecoveryResetRequest)
    (port : Option MoonlightInputPortStatus) :
    MoonlightInputBridge × MoonlightInputControlResult :=
  let answered (b : MoonlightInputBridge) :=
    b.answer request.identity request.operationGeneration
  if !request.valid then answered b .invalidRequest
  else if b.identity ≠ request.identity then answered b .stale
  else if b.state ≠ .active then answered b .invalidState
  else if request.operationGeneration < b.lastOperationGeneration then
    answered b .stale
  else if b.lastRecoveryResetGeneration = request.operationGeneration then
    answered b .alreadyApplied
  else match port with
    | none => answered b .ownerUnavailable
    | some .accepted => answered { b with
          lastOperationGeneration := request.operationGeneration
          lastRecoveryResetGeneration := request.operationGeneration
          counters.recoveryResets :=
            saturatingIncrement b.counters.recoveryResets }
        .applied
    | some .backpressure => answered { b with
          counters.recoveryResetBackpressure :=
            saturatingIncrement b.counters.recoveryResetBackpressure }
        .portFailure
    | some _ => answered { b with
          counters.recoveryResetFailures :=
            saturatingIncrement b.counters.recoveryResetFailures }
        .portFailure

end Control

-- ================================ dispatch

def validEnvelope (event : MoonlightInputEvent) : Bool :=
  event.identity.valid && event.deviceId ≠ 0 && knownSource event.source
    && event.sourceGeneration ≠ 0 && event.sourceSequence ≠ 0
    && event.monotonicTimestampUs ≠ 0 && knownKind event.kind
    && sourceSupportsKind event.source event.kind && event.commandVersion = 1
    && event.payloadSize ≠ 0
    && event.payloadSize ≤ b.limits.maximumPayloadBytes

def zeroTail (event : MoonlightInputEvent) : Bool :=
  (event.payload.drop event.payloadSize).all (· = 0)

def activeAdmission : Bool := b.state = .active

def releaseAdmission (event : MoonlightInputEvent) : Bool :=
  b.state = .releasePending && event.lifecycleRelease
    && event.monotonicTimestampUs ≤ b.lastBoundaryTimestampUs

/-- Why the lane of an event, or the want of one, refuses it. -/
def laneRefusal (event : MoonlightInputEvent) :
    Option MoonlightInputDispatchStatus :=
  match b.findLane event with
  | some lane =>
    if event.sourceGeneration < lane.sourceGeneration then some .staleEvent
    else if event.sourceGeneration = lane.sourceGeneration then
      if event.sourceSequence = lane.lastSequence then some .duplicate
      else if event.sourceSequence < lane.lastSequence
          ∨ event.monotonicTimestampUs < lane.lastTimestampUs then
        some .staleEvent
      else none
    else if event.monotonicTimestampUs < lane.lastTimestampUs then
      some .staleEvent
    else none
  | none =>
    if b.sourceLanes.length ≥ b.limits.sourceLaneCapacity then
      some .sourceCapacity
    else none

/-- An event that is not accepted is counted. -/
def refused (status : MoonlightInputDispatchStatus) :
    MoonlightInputBridge × MoonlightInputDispatchStatus :=
  ({ b with counters := b.counters.count status }, status)

def dispatch (event : MoonlightInputEvent)
    (port : Option MoonlightInputPortStatus) :
    MoonlightInputBridge × MoonlightInputDispatchStatus :=
  if !b.validEnvelope event || !zeroTail event then b.refused .invalidRequest
  else if b.identity ≠ event.identity then b.refused .staleOwner
  else if !b.activeAdmission && !b.releaseAdmission event then
    b.refused .invalidState
  else if b.activeAdmission
      && event.monotonicTimestampUs ≤ b.lastBoundaryTimestampUs then
    b.refused .staleEvent
  else match b.laneRefusal event with
    | some status => b.refused status
    | none => match port with
      | none => b.refused .staleOwner
      | some .accepted =>
        ({ b with
            sourceLanes := putLane event b.sourceLanes
            latestEventTimestampUs :=
              max b.latestEventTimestampUs event.monotonicTimestampUs
            counters := b.counters.count .accepted }, .accepted)
      | some .backpressure => b.refused .backpressure
      | some .unsupported => b.refused .unsupported
      | some .failed => b.refused .portFailure

-- =============================== lifecycle

def beginFlush (request : MoonlightInputFlushRequest) :
    MoonlightInputBridge × MoonlightInputControlResult :=
  let answered (b : MoonlightInputBridge) :=
    b.answer request.identity request.operationGeneration
  let exactPrepared := b.state = .releasePending
    ∧ b.suspendReason = request.reason
    ∧ b.lastOperationGeneration = request.operationGeneration
    ∧ b.lastBoundaryTimestampUs = request.monotonicTimestampUs
  let terminalUpgrade := b.state = .releasePending
    ∧ b.suspendReason = .focusLost ∧ request.reason = .stop
  let terminalFromSuspended := b.state = .suspended
    ∧ b.suspendReason = .focusLost ∧ request.reason = .stop
  if !request.identity.valid || request.reason = .none
      || request.operationGeneration = 0
      || request.monotonicTimestampUs = 0 then answered b .invalidRequest
  else if b.identity ≠ request.identity then answered b .stale
  else if exactPrepared then answered b .alreadyApplied
  else if b.state ≠ .active ∧ ¬ terminalUpgrade ∧ ¬ terminalFromSuspended then
    answered b .invalidState
  else if request.operationGeneration ≤ b.lastOperationGeneration
      ∨ request.monotonicTimestampUs < b.lastBoundaryTimestampUs
      ∨ request.monotonicTimestampUs < b.latestEventTimestampUs then
    answered b .stale
  else answered { b with
      state := .releasePending
      suspendReason := request.reason
      lastOperationGeneration := request.operationGeneration
      lastBoundaryTimestampUs := request.monotonicTimestampUs }
    .applied

section Lifecycle

variable (requested : MoonlightInputIdentity)
  (operationGeneration monotonicTimestampUs : Nat)

/-- The bridge behind a boundary that is not yet neutral. -/
def prepared (reason : MoonlightInputSuspendReason) : MoonlightInputBridge :=
  { b with
    state := .releasePending
    suspendReason := reason
    lastOperationGeneration := operationGeneration
    lastBoundaryTimestampUs :=
      max b.lastBoundaryTimestampUs monotonicTimestampUs }

/-- `flushNeutral` of the port, for a bridge that was prepared. -/
def flushNeutral (port : Option Bool) (state : MoonlightInputState) :
    MoonlightInputBridge × MoonlightInputControlResult :=
  let failed := { b with
    counters.neutralFlushFailures :=
      saturatingIncrement b.counters.neutralFlushFailures }
  match port with
  | none => failed.answer requested operationGeneration .ownerUnavailable
  | some false => failed.answer requested operationGeneration .portFailure
  | some true => answer { b with
        state
        counters.neutralFlushes :=
          saturatingIncrement b.counters.neutralFlushes }
      requested operationGeneration .applied

/-- The boundary of an operation that is already applied is moved on. -/
def withBoundary : MoonlightInputBridge :=
  { b with
    lastOperationGeneration := operationGeneration
    lastBoundaryTimestampUs :=
      max b.lastBoundaryTimestampUs monotonicTimestampUs }

def focusLost (port : Option Bool) :
    MoonlightInputBridge × MoonlightInputControlResult :=
  let wasPrepared := b.state = .releasePending ∧ b.suspendReason = .focusLost
  if !requested.valid || operationGeneration = 0
      || monotonicTimestampUs = 0 then
    b.answer requested operationGeneration .invalidRequest
  else if b.identity ≠ requested then
    b.answer requested operationGeneration .stale
  else if operationGeneration < b.lastOperationGeneration
      ∨ monotonicTimestampUs < b.lastBoundaryTimestampUs
      ∨ monotonicTimestampUs < b.latestEventTimestampUs then
    b.answer requested operationGeneration .stale
  else if b.state = .suspended ∧ b.suspendReason = .focusLost then
    (b.withBoundary operationGeneration monotonicTimestampUs).answer requested
      operationGeneration .alreadyApplied
  else if b.state ≠ .active ∧ ¬ wasPrepared then
    b.answer requested operationGeneration .invalidState
  else if operationGeneration = b.lastOperationGeneration
      ∧ ¬ wasPrepared then
    b.answer requested operationGeneration .stale
  else (b.prepared operationGeneration monotonicTimestampUs .focusLost)
    |>.flushNeutral requested operationGeneration port .suspended

def resume (owner : Bool) :
    MoonlightInputBridge × MoonlightInputControlResult :=
  if !requested.valid || operationGeneration = 0 then
    b.answer requested operationGeneration .invalidRequest
  else if b.identity ≠ requested
      ∨ operationGeneration < b.lastOperationGeneration then
    b.answer requested operationGeneration .stale
  else if b.state = .active then
    (b.withGeneration operationGeneration).answer requested
      operationGeneration .alreadyApplied
  else if b.state ≠ .suspended ∨ b.suspendReason ≠ .focusLost then
    b.answer requested operationGeneration .invalidState
  else if operationGeneration = b.lastOperationGeneration then
    b.answer requested operationGeneration .stale
  else if !owner then
    b.answer requested operationGeneration .ownerUnavailable
  else answer { b with
      state := .active
      suspendReason := .none
      lastOperationGeneration := operationGeneration }
    requested operationGeneration .applied

def stop (port : Option Bool) :
    MoonlightInputBridge × MoonlightInputControlResult :=
  let wasPrepared := b.state = .releasePending ∧ b.suspendReason = .stop
  if !requested.valid || operationGeneration = 0
      || monotonicTimestampUs = 0 then
    b.answer requested operationGeneration .invalidRequest
  else if b.identity ≠ requested
      ∨ operationGeneration < b.lastOperationGeneration
      ∨ monotonicTimestampUs < b.lastBoundaryTimestampUs
      ∨ monotonicTimestampUs < b.latestEventTimestampUs then
    b.answer requested operationGeneration .stale
  else if b.state = .stopped then
    (b.withBoundary operationGeneration monotonicTimestampUs).answer requested
      operationGeneration .alreadyApplied
  else if b.state ≠ .active ∧ b.state ≠ .suspended ∧ ¬ wasPrepared then
    b.answer requested operationGeneration .invalidState
  else if operationGeneration = b.lastOperationGeneration
      ∧ ¬ wasPrepared then
    b.answer requested operationGeneration .stale
  else (b.prepared operationGeneration monotonicTimestampUs .stop)
    |>.flushNeutral requested operationGeneration port .stopped

def stopLocally : MoonlightInputBridge × MoonlightInputControlResult :=
  if !requested.valid || operationGeneration = 0
      || monotonicTimestampUs = 0 then
    b.answer requested operationGeneration .invalidRequest
  else if b.identity ≠ requested
      ∨ operationGeneration < b.lastOperationGeneration
      ∨ monotonicTimestampUs < b.lastBoundaryTimestampUs then
    b.answer requested operationGeneration .stale
  else if b.state = .stopped then
    answer { b with
        lastOperationGeneration := operationGeneration
        lastBoundaryTimestampUs := monotonicTimestampUs }
      requested operationGeneration .alreadyApplied
  else if b.state ≠ .active ∧ b.state ≠ .suspended
      ∧ b.state ≠ .releasePending then
    b.answer requested operationGeneration .invalidState
  else answer { b with
      sourceLanes := []
      state := .stopped
      suspendReason := .stop
      lastOperationGeneration := operationGeneration
      lastBoundaryTimestampUs := monotonicTimestampUs }
    requested operationGeneration .applied

def cleanup : MoonlightInputBridge × MoonlightInputControlResult :=
  if !requested.valid || operationGeneration = 0 then
    b.answer requested operationGeneration .invalidRequest
  else if b.identity ≠ requested then
    if b.state = .cleaned ∧ b.lastCleanedIdentity = requested then
      if operationGeneration < b.lastOperationGeneration then
        b.answer requested operationGeneration .stale
      else (b.withGeneration operationGeneration).answer requested
        operationGeneration .alreadyApplied
    else b.answer requested operationGeneration .stale
  else if operationGeneration < b.lastOperationGeneration then
    b.answer requested operationGeneration .stale
  else if b.state ≠ .stopped then
    b.answer requested operationGeneration .invalidState
  else if operationGeneration = b.lastOperationGeneration then
    b.answer requested operationGeneration .stale
  else answer { b with
      lastCleanedIdentity := b.identity
      identity := {}
      sourceLanes := []
      state := .cleaned
      suspendReason := .none
      lastOperationGeneration := operationGeneration }
    requested operationGeneration .applied

end Lifecycle

end MoonlightInputBridge

-- ==================================== runs

/-- An operation, with what the owner gate and the port answer to it. -/
inductive BridgeOp where
  | activate (requested : MoonlightInputIdentity) (operationGeneration : Nat)
      (owner : Bool)
  | resetRemoteState (request : MoonlightInputRecoveryResetRequest)
      (port : Option MoonlightInputPortStatus)
  | dispatch (event : MoonlightInputEvent)
      (port : Option MoonlightInputPortStatus)
  | beginFlush (request : MoonlightInputFlushRequest)
  | focusLost (requested : MoonlightInputIdentity)
      (operationGeneration monotonicTimestampUs : Nat) (port : Option Bool)
  | resume (requested : MoonlightInputIdentity) (operationGeneration : Nat)
      (owner : Bool)
  | stop (requested : MoonlightInputIdentity)
      (operationGeneration monotonicTimestampUs : Nat) (port : Option Bool)
  | stopLocally (requested : MoonlightInputIdentity)
      (operationGeneration monotonicTimestampUs : Nat)
  | cleanup (requested : MoonlightInputIdentity) (operationGeneration : Nat)

namespace MoonlightInputBridge

def step (b : MoonlightInputBridge) : BridgeOp → MoonlightInputBridge
  | .activate requested generation owner =>
    (b.activate requested generation owner).1
  | .resetRemoteState request port => (b.resetRemoteState request port).1
  | .dispatch event port => (b.dispatch event port).1
  | .beginFlush request => (b.beginFlush request).1
  | .focusLost requested generation time port =>
    (b.focusLost requested generation time port).1
  | .resume requested generation owner =>
    (b.resume requested generation owner).1
  | .stop requested generation time port =>
    (b.stop requested generation time port).1
  | .stopLocally requested generation time =>
    (b.stopLocally requested generation time).1
  | .cleanup requested generation => (b.cleanup requested generation).1

/-- The event that the port accepts in an operation. -/
def sent (b : MoonlightInputBridge) : BridgeOp → Option MoonlightInputEvent
  | .dispatch event port =>
    if (b.dispatch event port).2 = .accepted then some event else none
  | _ => none

end MoonlightInputBridge

/-- A bridge and the events that its port has accepted. -/
structure BridgeRun where
  bridge : MoonlightInputBridge
  accepted : List MoonlightInputEvent := []

def BridgeRun.step (r : BridgeRun) (op : BridgeOp) : BridgeRun :=
  { bridge := r.bridge.step op
    accepted := r.accepted ++ (r.bridge.sent op).toList }

end RemoteDesk.Moonlight.Input
