/-
The streaming writer's queue (`StreamingWriterShared` and the two
enqueue functions of `StreamingWriter`, crypto_channel.rs).

# What is modelled

The state behind the writer's mutex, and each pass through it as one
transition: `enqueue_control` and `take_next` hold the lock for one turn
of their loop and otherwise wait on the condition variable, so a call
that waits is a turn that changes nothing, followed by another turn. A
poisoned mutex (a panic while the lock is held) is not modelled.

# Publications

A queued control may carry a clipboard receipt. Whether the receipt is
still pending is decided elsewhere; `enqueueControl` takes the two
answers it reads as arguments.

# Counters

`pending_acks` is a `u64` with a checked increment, `controls_since_ack`
a `usize` with a saturating one; both are `Nat` with that limit.
-/
import RemoteDesk.Wire.Frame

namespace RemoteDesk.Crypto

open Wire

/-- `STREAMING_CONTROL_QUEUE_CAPACITY`. -/
def controlQueueCapacity : Nat := 128

/-- `STREAMING_ACK_AFTER_CONTROLS`: the fairness burst. -/
def ackAfterControls : Nat := 8

/-- The largest `u64`, and the largest `usize` of the target. -/
def counterMax : Nat := 2 ^ 64 - 1

-- =================================== state

/-- A clipboard receipt, by its publication id. -/
abbrev Receipt := Nat

structure QueuedWrite where
  bytes : Bytes
  publication : Option Receipt := none
  deriving DecidableEq, Repr

structure StreamingWriterState where
  control : List QueuedWrite := []
  ackPayload : Option Bytes := none
  pendingAcks : Nat := 0
  controlsSinceAck : Nat := 0
  closed : Bool := false
  error : Option String := none
  deriving DecidableEq, Repr

namespace StreamingWriterState

-- ================================== taking

/-- `take_ack`. -/
def takeAck (state : StreamingWriterState) :
    Option (Bytes × StreamingWriterState) :=
  if state.pendingAcks = 0 then none
  else
    match state.ackPayload with
    | none => none
    | some payload =>
      let pendingAcks := state.pendingAcks - 1
      some (payload,
        { state with
          pendingAcks
          controlsSinceAck := 0
          ackPayload := if pendingAcks = 0 then none
            else state.ackPayload })

/-- One turn of `take_next`: a write to make, the writer's end, or a
wait. -/
inductive Next
  | write (queued : QueuedWrite) (state : StreamingWriterState)
  | stop
  | wait
  deriving DecidableEq, Repr

/-- `take_ack(&mut state)?` in `take_next`: no ack to take ends the
writer. -/
def takeAckOrStop (state : StreamingWriterState) : Next :=
  match state.takeAck with
  | some (payload, state) => .write { bytes := payload } state
  | none => .stop

/-- One turn of `take_next`'s loop. -/
def takeNext (state : StreamingWriterState) : Next :=
  if 0 < state.pendingAcks ∧ ackAfterControls ≤ state.controlsSinceAck then
    state.takeAckOrStop
  else
    match state.control with
    | queued :: control =>
      .write queued
        { state with
          control
          controlsSinceAck := min counterMax
            (state.controlsSinceAck + 1) }
    | [] =>
      if 0 < state.pendingAcks then state.takeAckOrStop
      else if state.closed then .stop
      else .wait

-- =============================== enqueuing

/-- One turn of an enqueue: refused, done, or waiting for room. -/
inductive Enqueue
  | refused (error : IoError)
  | accepted (state : StreamingWriterState)
  | wait
  deriving DecidableEq, Repr

def publicationExpired : IoError :=
  { kind := .interrupted, message := "clipboard publication expired" }

def writerClosed : IoError :=
  { kind := .notConnected, message := "streaming writer closed" }

/-- One turn of `enqueue_control_with_receipt`; `enqueue_control` passes
no receipt. `pending` and `stillPending` are the receipt's answers at
the top of the turn and right before the push. -/
def enqueueControl (state : StreamingWriterState) (plaintext : Bytes)
    (receipt : Option Receipt) (pending stillPending : Bool) : Enqueue :=
  if receipt.isSome && !pending then .refused publicationExpired
  else
    match state.error with
    | some error => .refused { kind := .brokenPipe, message := error }
    | none =>
      if state.closed then .refused writerClosed
      else if state.control.length < controlQueueCapacity then
        if receipt.isSome && !stillPending then
          .refused publicationExpired
        else
          .accepted
            { state with
              control := state.control ++
                [{ bytes := plaintext, publication := receipt }] }
      else .wait

/-- `enqueue_ack`, and the state it leaves: an overflowing count is
refused after the payload was replaced. -/
def enqueueAck (state : StreamingWriterState) (plaintext : Bytes) :
    Except IoError Unit × StreamingWriterState :=
  match state.error with
  | some error =>
    (.error { kind := .brokenPipe, message := error }, state)
  | none =>
    if state.closed then (.error writerClosed, state)
    else
      let state := { state with ackPayload := some plaintext }
      if state.pendingAcks + 1 ≤ counterMax then
        (.ok (), { state with pendingAcks := state.pendingAcks + 1 })
      else
        (.error { kind := .other
                  message := "streaming video ACK count overflow" },
          state)

-- ================================= closing

/-- `Drop for StreamingWriter`: no more writes are accepted. -/
def close (state : StreamingWriterState) : StreamingWriterState :=
  { state with closed := true }

/-- `set_error`: the writer failed, and its queue is dropped. -/
def setError (state : StreamingWriterState) (error : IoError) :
    StreamingWriterState :=
  { state with
    error := some error.message, closed := true, control := [] }

/-- `check_error`. -/
def checkError (state : StreamingWriterState) : Except IoError Unit :=
  match state.error with
  | some error => .error { kind := .brokenPipe, message := error }
  | none => if state.closed then .error writerClosed else .ok ()

end StreamingWriterState

end RemoteDesk.Crypto
