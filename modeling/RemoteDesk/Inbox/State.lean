/-
`ControlInbox` (control_inbox.rs): the mailbox between the UI thread and
the session's streaming loop.

# What is modelled

The inbox's own state: the reliable deque, the coalescing slots (latest
mouse position, latest display switch, merged touch deltas, merged 2-D
wheel deltas), the two unsequenced flags (refresh, video pressure), the
touch-stream bookkeeping, the counters, and the permission and phone
gates around it. Every function runs under the inbox lock, so one call
is one transition; lock poisoning (a panic while the lock is held) is
not modelled.

`request_shutdown` and `update_permission` also notify the file
clipboard; that object has its own state machine, and nothing the inbox
does afterwards reads it back.

# Sequence numbers

`next_sequence` is a `u64` that saturates at its maximum. It is a `Nat`
here with the same saturation, so a run that stays below `u64Max` gives
every enqueue its own number and one that reaches it does not.

# What take_batch returns

The source pops a queued entry and pushes its `message`. The drain loop
here keeps the popped entry's sequence number next to the message
(`Delivery`), so that statements about order can name messages; what
`take_batch` returns is the messages alone (`takeBatch`).
-/
import RemoteDesk.Inbox.Message

namespace RemoteDesk.Inbox

-- ============================== arithmetic

def u64Max : Nat := 2 ^ 64 - 1
def i32Min : Int := -2 ^ 31
def i32Max : Int := 2 ^ 31 - 1
def touchScaleBase : Int := 1000

/-- `i32::saturating_add`. -/
def i32SaturatingAdd (a b : Int) : Int :=
  max i32Min (min i32Max (a + b))

/-- `combine_scale_delta`: the product of two per-mille scales, rounded
toward zero and clamped to `i32`. -/
def combineScaleDelta (previous next : Int) : Int :=
  max i32Min (min i32Max (Int.tdiv (previous * next) touchScaleBase))

-- =================================== state

structure SequencedControl where
  sequence : Nat
  message : ControlMsg
  deriving DecidableEq, Repr

structure PendingTouchUpdate where
  sequence : Nat
  scale : Option Int
  pan : Option (Int × Int)
  deriving DecidableEq, Repr

def PendingTouchUpdate.isEmpty (pending : PendingTouchUpdate) : Bool :=
  pending.scale.isNone && pending.pan.isNone

structure PendingMouseWheel2D where
  sequence : Nat
  x : Int
  y : Int
  deriving DecidableEq, Repr

/-- The state behind the inbox lock. -/
structure ControlInboxState where
  nextSequence : Nat := 1
  reliable : List SequencedControl := []
  displaySwitch : Option SequencedControl := none
  mouseMove : Option SequencedControl := none
  refreshPending : Bool := false
  videoPressure : Option Nat := none
  touchUpdate : Option PendingTouchUpdate := none
  mouseWheel2D : Option PendingMouseWheel2D := none
  touchActive : Bool := false
  touchScaleEndPending : Bool := false
  touchPanEndEnqueued : Bool := false
  pendingTouchScaleEndMarkers : Nat := 0
  pendingTouchPanEnds : Nat := 0
  maxReliableDepth : Nat := 0
  coalescedMouseMoves : Nat := 0
  coalescedDisplaySwitches : Nat := 0
  discardedPointerUpdates : Nat := 0
  coalescedRefreshes : Nat := 0
  coalescedVideoPressure : Nat := 0
  coalescedTouchScales : Nat := 0
  coalescedTouchPanUpdates : Nat := 0
  coalescedMouseWheel2D : Nat := 0
  batchLimitHits : Nat := 0
  deriving DecidableEq, Repr

/-- The inbox with its atomics: `permission_known`/`permission_enabled`,
the phone geometry gate, and the shutdown flag. -/
structure ControlInbox where
  shutdown : Bool := false
  phoneInputEnabled : Bool := false
  phoneInputReady : Bool := true
  phoneInputEpoch : Nat := 0
  permissionKnown : Permission := 0
  permissionEnabled : Permission := 0
  state : ControlInboxState := {}
  deriving DecidableEq, Repr

/-- The ordered sources `take_batch` chooses from. -/
inductive OrderedPending
  | reliable
  | mouseMove
  | touchUpdate
  | mouseWheel2D
  | displaySwitch
  deriving DecidableEq, Repr

/-- One message handed to the session, with the sequence number of the
queue entry it came from (`none` for the two unsequenced flags). -/
structure Delivery where
  sequence : Option Nat
  message : ControlMsg
  deriving DecidableEq, Repr

def SequencedControl.delivery (queued : SequencedControl) : Delivery :=
  { sequence := some queued.sequence, message := queued.message }

@[simp] theorem SequencedControl.delivery_sequence
    (queued : SequencedControl) :
    queued.delivery.sequence = some queued.sequence := rfl

@[simp] theorem SequencedControl.delivery_message
    (queued : SequencedControl) :
    queued.delivery.message = queued.message := rfl

theorem SequencedControl.delivery_inj {a b : SequencedControl}
    (h : a.delivery = b.delivery) : a = b := by
  cases a; cases b; cases h; rfl

namespace ControlInboxState

-- ============================== primitives

/-- `next_sequence`: hand out a number, saturating at `u64::MAX`. -/
def takeSequence (state : ControlInboxState) : Nat × ControlInboxState :=
  (state.nextSequence,
    { state with nextSequence := min u64Max (state.nextSequence + 1) })

def enqueueReliable (state : ControlInboxState) (sequence : Nat)
    (message : ControlMsg) : ControlInboxState :=
  let reliable := state.reliable ++ [⟨sequence, message⟩]
  { state with
    reliable
    maxReliableDepth := max state.maxReliableDepth reliable.length }

def enqueueTouchUpdate (state : ControlInboxState)
    (pending : PendingTouchUpdate) : ControlInboxState :=
  let state := match pending.scale with
    | some scale =>
      state.enqueueReliable pending.sequence (.touchScale scale)
    | none => state
  match pending.pan with
  | some (x, y) =>
    state.enqueueReliable pending.sequence (.touchPanUpdate x y)
  | none => state

def enqueueMouseWheel2D (state : ControlInboxState)
    (pending : PendingMouseWheel2D) : ControlInboxState :=
  state.enqueueReliable pending.sequence
    (.mouseWheel2D pending.x pending.y)

/-- `flush_coalesced_pointer_updates_before_reliable`: move the touch
and wheel slots to the deque, the older one first. -/
def flushCoalesced (state : ControlInboxState) : ControlInboxState :=
  let touch := state.touchUpdate
  let wheel := state.mouseWheel2D
  let state := { state with touchUpdate := none, mouseWheel2D := none }
  match touch, wheel with
  | some touch, some wheel =>
    if touch.sequence ≤ wheel.sequence then
      (state.enqueueTouchUpdate touch).enqueueMouseWheel2D wheel
    else
      (state.enqueueMouseWheel2D wheel).enqueueTouchUpdate touch
  | some touch, none => state.enqueueTouchUpdate touch
  | none, some wheel => state.enqueueMouseWheel2D wheel
  | none, none => state

/-- `discard_stale_pointer_updates`: what a display switch drops. -/
def discardStalePointerUpdates (state : ControlInboxState) :
    ControlInboxState :=
  let reliable := state.reliable.filter (!·.message.isStaleUpdate)
  let dropped := (if state.mouseMove.isSome then 1 else 0)
    + (state.touchUpdate.elim 0 fun pending =>
        (if pending.scale.isSome then 1 else 0)
          + (if pending.pan.isSome then 1 else 0))
    + (if state.mouseWheel2D.isSome then 1 else 0)
    + (state.reliable.length - reliable.length)
  { state with
    mouseMove := none
    touchUpdate := none
    mouseWheel2D := none
    reliable
    discardedPointerUpdates := state.discardedPointerUpdates + dropped }

/-- `discard_permission_controls`: what a denied permission drops. -/
def discardPermissionControls (state : ControlInboxState)
    (permission : Permission) : ControlInboxState :=
  let state := { state with
    reliable := state.reliable.filter fun queued =>
      requiredPermission queued.message != some permission
    mouseMove := if state.mouseMove.any fun queued =>
        requiredPermission queued.message == some permission
      then none else state.mouseMove }
  if permission = permissionKeyboard then
    { state with
      touchUpdate := none
      mouseWheel2D := none
      touchActive := false
      touchScaleEndPending := false
      touchPanEndEnqueued := false
      pendingTouchScaleEndMarkers := 0
      pendingTouchPanEnds := 0 }
  else state

def mergeTouchScale (state : ControlInboxState) (sequence : Nat)
    (scale : Int) : ControlInboxState :=
  match state.touchUpdate with
  | none =>
    { state with touchUpdate := some { sequence, scale, pan := none } }
  | some pending =>
    match pending.scale with
    | some previous =>
      { state with
        touchUpdate := some { pending with
          sequence, scale := combineScaleDelta previous scale }
        coalescedTouchScales := state.coalescedTouchScales + 1 }
    | none =>
      { state with
        touchUpdate := some { pending with sequence, scale } }

def mergeTouchPan (state : ControlInboxState) (sequence : Nat)
    (x y : Int) : ControlInboxState :=
  match state.touchUpdate with
  | none =>
    { state with
      touchUpdate := some { sequence, scale := none, pan := (x, y) } }
  | some pending =>
    match pending.pan with
    | some (previousX, previousY) =>
      { state with
        touchUpdate := some { pending with
          sequence
          pan := (i32SaturatingAdd previousX x,
            i32SaturatingAdd previousY y) }
        coalescedTouchPanUpdates :=
          state.coalescedTouchPanUpdates + 1 }
    | none =>
      { state with
        touchUpdate := some { pending with sequence, pan := (x, y) } }

def mergeMouseWheel2D (state : ControlInboxState) (sequence : Nat)
    (x y : Int) : ControlInboxState :=
  match state.mouseWheel2D with
  | none => { state with mouseWheel2D := some { sequence, x, y } }
  | some pending =>
    { state with
      mouseWheel2D := some {
        sequence
        x := i32SaturatingAdd pending.x x
        y := i32SaturatingAdd pending.y y }
      coalescedMouseWheel2D := state.coalescedMouseWheel2D + 1 }

-- ================================= enqueue

/-- The catch-all arm of `enqueue`: flush, then append. -/
def enqueueOther (state : ControlInboxState) (sequence : Nat)
    (message : ControlMsg) : ControlInboxState :=
  state.flushCoalesced.enqueueReliable sequence message

/-- The `match` of `enqueue`, after the gates have let the message
through. A rejected touch or wheel message has still used a number. -/
def enqueue (state : ControlInboxState) (message : ControlMsg) :
    ControlInboxState × Bool :=
  let (sequence, state) := state.takeSequence
  match message with
  | .mouseWheel2D x y =>
    if x = 0 ∧ y = 0 then (state, false)
    else (state.mergeMouseWheel2D sequence x y, true)
  | .mouseMove .. =>
    ({ state with
        mouseMove := some { sequence, message }
        coalescedMouseMoves := state.coalescedMouseMoves
          + (if state.mouseMove.isSome then 1 else 0) }, true)
  | .displaySwitch .. =>
    let state := state.discardStalePointerUpdates
    ({ state with
        displaySwitch := some { sequence, message }
        coalescedDisplaySwitches := state.coalescedDisplaySwitches
          + (if state.displaySwitch.isSome then 1 else 0) }, true)
  | .refreshVideo =>
    ({ state with
        refreshPending := true
        coalescedRefreshes := state.coalescedRefreshes
          + (if state.refreshPending then 1 else 0) }, true)
  | .videoPressure level =>
    ({ state with
        videoPressure := some level
        coalescedVideoPressure := state.coalescedVideoPressure
          + (if state.videoPressure.isSome then 1 else 0) }, true)
  | .touchPanStart .. =>
    -- a new start drops what an abandoned stream left in the slot
    ({ state with
        touchUpdate := none
        touchActive := true
        touchScaleEndPending := false
        touchPanEndEnqueued := false }.enqueueReliable sequence message,
      true)
  | .touchScale scale =>
    if 0 < scale then
      if !state.touchActive || state.touchScaleEndPending then
        (state, false)
      else (state.mergeTouchScale sequence scale, true)
    else if scale = 0 then
      if !state.touchActive || state.touchScaleEndPending then
        (state, false)
      else
        let state := state.flushCoalesced
        ({ state with
            touchScaleEndPending := true
            touchActive := false
            pendingTouchScaleEndMarkers :=
              state.pendingTouchScaleEndMarkers + 1
          }.enqueueReliable sequence message, true)
    -- a negative scale matches neither touch arm
    else (state.enqueueOther sequence message, true)
  | .touchPanUpdate x y =>
    if !state.touchActive || state.touchScaleEndPending then
      (state, false)
    else (state.mergeTouchPan sequence x y, true)
  | .touchPanEnd .. =>
    if state.touchPanEndEnqueued
        || (!state.touchActive && !state.touchScaleEndPending) then
      (state, false)
    else
      let state := state.flushCoalesced
      ({ state with
          touchActive := false
          touchScaleEndPending := true
          touchPanEndEnqueued := true
          pendingTouchPanEnds := state.pendingTouchPanEnds + 1
        }.enqueueReliable sequence message, true)
  | reliable => (state.enqueueOther sequence reliable, true)

-- =================================== drain

/-- The sequence number at the head of each ordered source. -/
def headSequence (state : ControlInboxState) : OrderedPending → Option Nat
  | .reliable => state.reliable.head?.map (·.sequence)
  | .mouseMove => state.mouseMove.map (·.sequence)
  | .touchUpdate => state.touchUpdate.map (·.sequence)
  | .mouseWheel2D => state.mouseWheel2D.map (·.sequence)
  | .displaySwitch => state.displaySwitch.map (·.sequence)

/-- One of `next_ordered_pending`'s five comparisons: a source replaces
the selection only when its head is strictly older. -/
def prefer (state : ControlInboxState)
    (selected : Option (Nat × OrderedPending)) (source : OrderedPending) :
    Option (Nat × OrderedPending) :=
  match state.headSequence source with
  | none => selected
  | some sequence =>
    if selected.all fun chosen => decide (sequence < chosen.1) then
      some (sequence, source)
    else selected

/-- `next_ordered_pending`: the source whose head is oldest, the
earlier-listed source on a tie. -/
def nextOrderedPending (state : ControlInboxState) :
    Option OrderedPending :=
  ([.reliable, .mouseMove, .touchUpdate, .mouseWheel2D,
    .displaySwitch].foldl state.prefer none).map Prod.snd

/-- `on_reliable_sent`: the end-marker counters. -/
def onReliableSent (state : ControlInboxState) (message : ControlMsg) :
    ControlInboxState :=
  match message with
  | .touchScale scale =>
    if scale = 0 then
      { state with
        pendingTouchScaleEndMarkers :=
          state.pendingTouchScaleEndMarkers - 1 }
    else state
  | .touchPanEnd .. =>
    { state with pendingTouchPanEnds := state.pendingTouchPanEnds - 1 }
  | _ => state

/-- `take_touch_update`, where `room` is what is left of the batch. The
scale goes out unconditionally, the pan only if there is room after it;
what did not go out stays in the slot. -/
def takeTouchUpdate (state : ControlInboxState) (room : Nat) :
    List Delivery × ControlInboxState :=
  match state.touchUpdate with
  | none => ([], state)
  | some pending =>
    let scaleOut : List Delivery := match pending.scale with
      | some scale => [⟨some pending.sequence, .touchScale scale⟩]
      | none => []
    let panOut : List Delivery :=
      if scaleOut.length < room then
        match pending.pan with
        | some (x, y) =>
          [⟨some pending.sequence, .touchPanUpdate x y⟩]
        | none => []
      else []
    let rest : PendingTouchUpdate := { pending with
      scale := none
      pan := if scaleOut.length < room then none else pending.pan }
    (scaleOut ++ panOut,
      { state with
        touchUpdate := if rest.isEmpty then none else some rest })

/-- One turn of `take_batch`'s ordered loop: `none` is its `break`. -/
def popOrdered (state : ControlInboxState) (room : Nat) :
    Option (List Delivery × ControlInboxState) :=
  match state.nextOrderedPending with
  | none => none
  | some .reliable =>
    match state.reliable with
    | [] => none
    | queued :: rest =>
      some ([queued.delivery],
        { state with reliable := rest }.onReliableSent queued.message)
  | some .mouseMove =>
    state.mouseMove.map fun queued =>
      ([queued.delivery], { state with mouseMove := none })
  | some .touchUpdate => some (state.takeTouchUpdate room)
  | some .mouseWheel2D =>
    match state.mouseWheel2D with
    | none => some ([], state)
    | some pending =>
      some ([⟨some pending.sequence,
          .mouseWheel2D pending.x pending.y⟩],
        { state with mouseWheel2D := none })
  | some .displaySwitch =>
    state.displaySwitch.map fun queued =>
      ([queued.delivery], { state with displaySwitch := none })

/-- The entries the ordered loop can still pop: its fuel. -/
def orderedPending (state : ControlInboxState) : Nat :=
  state.reliable.length
    + state.mouseMove.toList.length
    + state.touchUpdate.toList.length
    + state.mouseWheel2D.toList.length
    + state.displaySwitch.toList.length

/-- `take_batch`'s `while batch.len() < limit` loop. -/
def drainOrdered (limit : Nat) :
    Nat → ControlInboxState → List Delivery →
      List Delivery × ControlInboxState
  | 0, state, batch => (batch, state)
  | fuel + 1, state, batch =>
    if batch.length < limit then
      match state.popOrdered (limit - batch.length) with
      | none => (batch, state)
      | some (out, state) =>
        drainOrdered limit fuel state (batch ++ out)
    else (batch, state)

/-- `has_pending`. -/
def hasPending (state : ControlInboxState) : Bool :=
  !state.reliable.isEmpty || state.mouseMove.isSome
    || state.mouseWheel2D.isSome || state.displaySwitch.isSome
    || state.refreshPending || state.videoPressure.isSome
    || state.touchUpdate.isSome

/-- The refresh flag, taken after the ordered loop. -/
def drainRefresh (limit : Nat) (batch : List Delivery)
    (state : ControlInboxState) : List Delivery × ControlInboxState :=
  if batch.length < limit ∧ state.refreshPending = true then
    (batch ++ [⟨none, .refreshVideo⟩],
      { state with refreshPending := false })
  else (batch, state)

/-- The video pressure, taken last. -/
def drainPressure (limit : Nat) (batch : List Delivery)
    (state : ControlInboxState) : List Delivery × ControlInboxState :=
  if batch.length < limit then
    match state.videoPressure with
    | some level =>
      (batch ++ [⟨none, .videoPressure level⟩],
        { state with videoPressure := none })
    | none => (batch, state)
  else (batch, state)

/-- The two unsequenced flags. -/
def drainFlags (limit : Nat) (batch : List Delivery)
    (state : ControlInboxState) : List Delivery × ControlInboxState :=
  let (batch, state) := drainRefresh limit batch state
  drainPressure limit batch state

/-- `take_batch`, with the sequence number of every message it took. -/
def takeBatchSequenced (state : ControlInboxState) (limit : Nat) :
    List Delivery × ControlInboxState :=
  if limit = 0 then ([], state)
  else
    let (batch, state) :=
      state.drainOrdered limit state.orderedPending []
    let (batch, state) := drainFlags limit batch state
    (batch,
      if batch.length = limit ∧ state.hasPending = true then
        { state with batchLimitHits := state.batchLimitHits + 1 }
      else state)

end ControlInboxState

-- =============================== the gates

namespace ControlInbox

/-- `phone_input_lease`: `some ready` when the phone gate applies. -/
def phoneInputLease (inbox : ControlInbox) (message : ControlMsg) :
    Option Bool :=
  if !inbox.phoneInputEnabled
      || requiredPermission message != some permissionKeyboard then none
  else some inbox.phoneInputReady

/-- A permission the peer has explicitly denied. -/
def denied (inbox : ControlInbox) (message : ControlMsg) : Bool :=
  (requiredPermission message).any fun permission =>
    inbox.permissionKnown &&& permission != 0
      && inbox.permissionEnabled &&& permission == 0

/-- `enqueue`: the message's fate is the returned flag. -/
def enqueue (inbox : ControlInbox) (message : ControlMsg) :
    ControlInbox × Bool :=
  if message = .shutdown then ({ inbox with shutdown := true }, true)
  else if inbox.phoneInputLease message = some false then (inbox, false)
  else if inbox.denied message then (inbox, false)
  else
    let (state, accepted) := inbox.state.enqueue message
    ({ inbox with state }, accepted)

/-- `take_batch`: what the session thread sees. -/
def takeBatch (inbox : ControlInbox) (limit : Nat) :
    List ControlMsg × ControlInbox :=
  let (batch, state) := inbox.state.takeBatchSequenced limit
  (batch.map (·.message), { inbox with state })

/-- `update_permission`. -/
def updatePermission (inbox : ControlInbox) (permission : Permission)
    (enabled : Bool) : ControlInbox :=
  if permission = 0 then inbox
  else
    let inbox := { inbox with
      permissionEnabled := if enabled
        then inbox.permissionEnabled ||| permission
        else inbox.permissionEnabled &&& ~~~permission
      permissionKnown := inbox.permissionKnown ||| permission }
    if enabled then inbox
    else { inbox with
      state := inbox.state.discardPermissionControls permission }

/-- `set_phone_geometry_ready`. -/
def setPhoneGeometryReady (inbox : ControlInbox) (ready : Bool) :
    ControlInbox :=
  let inbox := { inbox with
    phoneInputEnabled := true, phoneInputReady := ready }
  if ready then inbox
  else { inbox with
    phoneInputEpoch := inbox.phoneInputEpoch + 1
    state := inbox.state.discardPermissionControls permissionKeyboard }

/-- `take_phone_fenced_batch`. -/
def takePhoneFencedBatch (inbox : ControlInbox) (limit : Nat) :
    (Nat × List ControlMsg) × ControlInbox :=
  let epoch := if inbox.phoneInputEnabled then inbox.phoneInputEpoch else 0
  let (batch, inbox) := inbox.takeBatch limit
  ((epoch, batch), inbox)

/-- `phone_batch_is_current`. -/
def phoneBatchIsCurrent (inbox : ControlInbox) (epoch : Nat) : Bool :=
  epoch == inbox.phoneInputEpoch

end ControlInbox

end RemoteDesk.Inbox
