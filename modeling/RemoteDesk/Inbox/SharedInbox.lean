/-
The calls on the inbox at the grain of its locks.

# Sections

The other modules take one call for one transition. Here a call is as
many steps as the source has accesses to what it shares: the state lock,
the phone gate, and the atomics. As in `TransferJob`, a lock is the
section its holder is in. A call that has read an atomic and holds no
lock is in one of the pending lists; a step whose lock is taken, or
whose call is not there, changes nothing. The atomics are taken in one
order. An older mask than that order gives could only be loaded by a
call that had the state lock before the writer of the newer one took it.

Two objects are left out: `request_shutdown` and `update_permission`
also tell the file clipboard, which has its own lock.
-/
import RemoteDesk.Inbox.State

namespace RemoteDesk.Inbox

open Lib

-- =================================== model

/-- How far the holder of the state lock has come in `enqueue`. -/
inductive EnqueuePoint
  | locked
  /-- `permission_known` has been read. -/
  | known (mask : Permission)
  | both (known enabled : Permission)
deriving DecidableEq, Repr

/-- An `enqueue` that holds the state lock, and the gate if `gated`. -/
structure EnqueueSection where
  message : ControlMsg
  gated : Bool
  point : EnqueuePoint := .locked
deriving DecidableEq, Repr

/-- What the holder of the phone gate is doing. -/
inductive GateSection
  /-- An `enqueue` under its lease, before or in the state lock. -/
  | enqueuing (message : ControlMsg)
  | fencing (limit : Nat) (epoch : Option Nat)
  /-- The gate is closed, the epoch not yet moved on. -/
  | closing
  /-- The epoch has moved on, the queues are not yet purged. -/
  | purging
  | checking (epoch : Nat)
deriving DecidableEq, Repr

/-- How far a call of `update_permission` has come. -/
inductive UpdatePoint
  | written
  | known
  | returned
deriving DecidableEq, Repr

structure PermissionUpdate where
  permission : Permission
  enabled : Bool
  point : UpdatePoint := .written
deriving DecidableEq, Repr

/-- What the calls did, as their callers see it. -/
inductive GateEvent
  | accepted (message : ControlMsg)
  | handed (batch : List ControlMsg)
  | fenced (epoch : Nat) (batch : List ControlMsg)
  | granted (permission : Permission)
  /-- A revocation takes its permission back; it has not returned. -/
  | withdrawn (call : Nat) (permission : Permission)
  | revoked (call : Nat) (permission : Permission)
  | closed
  | moved
  | checked (epoch : Nat) (current : Bool)
deriving DecidableEq, Repr

/-- The inbox with the calls on it. -/
structure SharedInbox where
  inbox : ControlInbox
  stateSection : Option EnqueueSection := none
  gateSection : Option GateSection := none
  /-- Enqueues that need no lease, before the state lock. -/
  entering : List ControlMsg := []
  /-- `take_phone_fenced_batch`es that found no phone input. -/
  unfenced : List Nat := []
  /-- Calls of `set_phone_geometry_ready` before the gate. -/
  readying : List Bool := []
  updates : List PermissionUpdate := []
  log : List GateEvent := []
deriving DecidableEq, Repr

inductive GateOp
  | enqueueEnter (message : ControlMsg)
  | enqueueLock (caller : Nat)
  | enqueueLockGated
  | enqueueLoad
  | enqueueDecide
  | takeBatch (limit : Nat)
  | fencedEnter (limit : Nat)
  | unfencedTake (caller : Nat)
  | fencedEpoch
  | fencedTake
  | updateWrite (permission : Permission) (enabled : Bool)
  | updateKnown (call : Nat)
  | updateDiscard (call : Nat)
  | readyStore (ready : Bool)
  | readySet (caller : Nat)
  | readyMove
  | readyPurge
  | checkEnter (epoch : Nat)
  | checkRead
deriving DecidableEq, Repr

namespace SharedInbox

/-- A fresh inbox under any atomics, with nobody calling. -/
def start (gates : ControlInbox) : SharedInbox :=
  { inbox := { gates with state := {} } }

def note (s : SharedInbox) (event : GateEvent) : SharedInbox :=
  { s with log := s.log ++ [event] }

/-- A `take_batch`, logged as its caller names it. -/
def take (s : SharedInbox) (limit : Nat)
    (event : List ControlMsg → GateEvent) : SharedInbox :=
  let (batch, inbox) := s.inbox.takeBatch limit
  let s := { s with inbox }
  s.note (event batch)

/-- `enqueue` releases what it holds. -/
def leave (s : SharedInbox) (held : EnqueueSection) : SharedInbox :=
  { s with
    stateSection := none
    gateSection := if held.gated then none else s.gateSection }

/-- The `match` of `enqueue`, under the state lock. -/
def commit (s : SharedInbox) (held : EnqueueSection) : SharedInbox :=
  let (state, accepted) := s.inbox.state.enqueue held.message
  let s := { s with inbox := { s.inbox with state } }
  let s := s.leave held
  if accepted then s.note (.accepted held.message) else s

/-- The rejection of `enqueue`: known, and not enabled. -/
def deniedBy (known enabled permission : Permission) : Bool :=
  known &&& permission != 0 && enabled &&& permission == 0

def step (s : SharedInbox) : GateOp → SharedInbox
  | .enqueueEnter m =>
    if m = .shutdown then
      let s := { s with inbox := { s.inbox with shutdown := true } }
      s.note (.accepted m)
    else if !s.inbox.phoneInputEnabled
        || requiredPermission m != some permissionKeyboard then
      { s with entering := s.entering ++ [m] }
    else if s.gateSection ≠ none then s
    else if s.inbox.phoneInputReady then
      { s with gateSection := some (.enqueuing m) }
    else s
  | .enqueueLock caller =>
    match s.entering[caller]? with
    | none => s
    | some m =>
      if s.stateSection ≠ none then s
      else { s with
        entering := s.entering.eraseIdx caller
        stateSection := some { message := m, gated := false } }
  | .enqueueLockGated =>
    match s.gateSection with
    | some (.enqueuing m) =>
      if s.stateSection ≠ none then s
      else { s with
        stateSection := some { message := m, gated := true } }
    | _ => s
  | .enqueueLoad =>
    match s.stateSection with
    | none => s
    | some held =>
      match held.point with
      | .locked =>
        let point := .known s.inbox.permissionKnown
        { s with stateSection := some { held with point } }
      | .known mask =>
        let point := .both mask s.inbox.permissionEnabled
        { s with stateSection := some { held with point } }
      | .both .. => s
  | .enqueueDecide =>
    match s.stateSection with
    | none => s
    | some held =>
      match requiredPermission held.message, held.point with
      | none, _ => s.commit held
      | some permission, .both known enabled =>
        if deniedBy known enabled permission then s.leave held
        else s.commit held
      | some _, _ => s
  | .takeBatch limit =>
    if s.stateSection ≠ none then s else s.take limit .handed
  | .fencedEnter limit =>
    if !s.inbox.phoneInputEnabled then
      { s with unfenced := s.unfenced ++ [limit] }
    else if s.gateSection ≠ none then s
    else { s with gateSection := some (.fencing limit none) }
  | .unfencedTake caller =>
    match s.unfenced[caller]? with
    | none => s
    | some limit =>
      if s.stateSection ≠ none then s
      else
        let s := { s with unfenced := s.unfenced.eraseIdx caller }
        s.take limit (.fenced 0)
  | .fencedEpoch =>
    match s.gateSection with
    | some (.fencing limit none) =>
      let epoch := some s.inbox.phoneInputEpoch
      { s with gateSection := some (.fencing limit epoch) }
    | _ => s
  | .fencedTake =>
    match s.gateSection with
    | some (.fencing limit (some epoch)) =>
      if s.stateSection ≠ none then s
      else
        let s := { s with gateSection := none }
        s.take limit (.fenced epoch)
    | _ => s
  | .updateWrite permission enabled =>
    if permission = 0 then s
    else
      let event := if enabled then GateEvent.granted permission
        else .withdrawn s.updates.length permission
      let update : PermissionUpdate := { permission, enabled }
      let s := { s with
        inbox := { s.inbox with
          permissionEnabled := if enabled
            then s.inbox.permissionEnabled ||| permission
            else s.inbox.permissionEnabled &&& ~~~permission }
        updates := s.updates ++ [update] }
      s.note event
  | .updateKnown call =>
    match s.updates[call]? with
    | some update =>
      if update.point = .written then
        { s with
          inbox := { s.inbox with
            permissionKnown :=
              s.inbox.permissionKnown ||| update.permission }
          updates := s.updates.set call
            { update with
              point := if update.enabled
                then .returned else .known } }
      else s
    | none => s
  | .updateDiscard call =>
    match s.updates[call]? with
    | some update =>
      if update.point = .known ∧ s.stateSection = none then
        let s := { s with
          inbox := { s.inbox with
            state := s.inbox.state.discardPermissionControls
              update.permission }
          updates := s.updates.set call
            { update with point := .returned } }
        s.note (.revoked call update.permission)
      else s
    | none => s
  | .readyStore ready =>
    { s with
      inbox := { s.inbox with phoneInputEnabled := true }
      readying := s.readying ++ [ready] }
  | .readySet caller =>
    match s.readying[caller]? with
    | none => s
    | some ready =>
      if s.gateSection ≠ none then s
      else
        let s := { s with
          inbox := { s.inbox with phoneInputReady := ready }
          readying := s.readying.eraseIdx caller }
        if ready then s
        else
          let s := { s with gateSection := some .closing }
          s.note .closed
  | .readyMove =>
    if s.gateSection = some .closing then
      let s := { s with
        inbox := { s.inbox with
          phoneInputEpoch := s.inbox.phoneInputEpoch + 1 }
        gateSection := some .purging }
      s.note .moved
    else s
  | .readyPurge =>
    if s.gateSection = some .purging ∧ s.stateSection = none then
      { s with
        inbox := { s.inbox with
          state := s.inbox.state.discardPermissionControls
            permissionKeyboard }
        gateSection := none }
    else s
  | .checkEnter epoch =>
    if s.inbox.phoneInputEnabled ∧ s.gateSection = none then
      { s with gateSection := some (.checking epoch) }
    else s
  | .checkRead =>
    match s.gateSection with
    | some (.checking epoch) =>
      let current := s.inbox.phoneBatchIsCurrent epoch
      let s := { s with gateSection := none }
      s.note (.checked epoch current)
    | _ => s

end SharedInbox

end RemoteDesk.Inbox
