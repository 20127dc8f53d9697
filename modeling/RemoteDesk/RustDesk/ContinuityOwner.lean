/-
The owner of a RustDesk connection that was lost
(rustdesk/rustdesk_connection_continuity_owner.h).

The owner is policy only: events, network changes, a clock and the results of
attempts go in, and an action comes out. Beside its action a decision carries
what the owner booked: an attempt that was charged, and the window of attempts
that was opened anew (`Mark`). Nothing of the owner depends on the marks.
-/
import RemoteDesk.Lib.Runs

namespace RemoteDesk.RustDesk

open Lib

-- =================================== types

inductive RustDeskContinuityState where
  | Idle
  | Connected
  | TransportLost
  | RetryPending
  | ReauthRequired
  | Terminal
deriving DecidableEq, Repr

inductive RustDeskTransportErrorClass where
  | None
  | Reset
  | Aborted
  | Timeout
  | BrokenPipe
  | NetworkDown
  | Unreachable
  | Auth
  | TwoFactor
  | Approval
  | License
  | Key
  | Protocol
  | Crypto
  | UserDisconnected
  | Unknown
deriving DecidableEq, Repr

structure RustDeskTransportEvent where
  error : Bool := false
  errorClass : RustDeskTransportErrorClass := .None
  networkGeneration : Nat := 0
  userInitiated : Bool := false
  networkAvailable : Bool := true
  monotonicMs : Nat := 0
deriving DecidableEq, Repr

structure RustDeskContinuityAction where
  visibleTransportLost : Bool := false
  fastQuiesce : Bool := false
  cancelAttempt : Bool := false
  startAttempt : Bool := false
  terminal : Bool := false
  attempt : Nat := 0
  delayMs : Nat := 0
deriving DecidableEq, Repr

/-- What the owner books: a window of attempts that is opened, and an attempt
that is charged to it. -/
inductive Mark where
  | Begun
  | Elapsed (since now : Nat)
  | NewGeneration (old new : Nat)
  | Succeeded
  | Charged
deriving DecidableEq, Repr

def kMaxAttemptsPerWindow : Nat := 5
def kAttemptWindowMs : Nat := 60000

structure RustDeskConnectionContinuityOwner where
  sessionId : Nat := 0
  sessionGeneration : Nat := 0
  networkGeneration : Nat := 0
  windowStartedMs : Nat := 0
  nextRetryMs : Nat := 0
  state : RustDeskContinuityState := .Idle
  attempts : Nat := 0
  networkAvailable : Bool := true
  cancelled : Bool := false
  retryScheduled : Bool := false
  attemptInFlight : Bool := false
  fastQuiesced : Bool := false
deriving DecidableEq, Repr

/-- What a call of the owner leaves: the owner, the action, and the marks. -/
structure Decision where
  owner : RustDeskConnectionContinuityOwner
  action : RustDeskContinuityAction := {}
  marks : List Mark := []
deriving DecidableEq, Repr

-- ================================== policy

def isRetryable : RustDeskTransportErrorClass → Bool
  | .Reset | .Aborted | .Timeout | .BrokenPipe | .NetworkDown
  | .Unreachable => true
  | _ => false

/-- The difference of two clock values, as `uint64_t`. -/
def elapsed (since nowMs : Nat) : Nat := (nowMs + 2 ^ 64 - since) % 2 ^ 64

namespace RustDeskConnectionContinuityOwner

def begin (owner : RustDeskConnectionContinuityOwner)
    (sessionId sessionGeneration nowMs : Nat) : Decision where
  owner :=
    { owner with
      sessionId
      sessionGeneration
      networkGeneration := 0
      state := .Connected
      networkAvailable := true
      cancelled := false
      attempts := 0
      windowStartedMs := nowMs
      nextRetryMs := 0
      retryScheduled := false
      attemptInFlight := false
      fastQuiesced := false }
  marks := [.Begun]

/-- The window is opened anew when its time is over. -/
def renewWindow (owner : RustDeskConnectionContinuityOwner) (nowMs : Nat) :
    RustDeskConnectionContinuityOwner × List Mark :=
  if elapsed owner.windowStartedMs nowMs ≥ kAttemptWindowMs then
    ({ owner with
        windowStartedMs := nowMs
        attempts := 0 },
      [.Elapsed owner.windowStartedMs nowMs])
  else (owner, [])

def scheduleFirstAttempt (owner : RustDeskConnectionContinuityOwner)
    (nowMs : Nat) (action : RustDeskContinuityAction) : Decision :=
  if owner.cancelled || !owner.networkAvailable || owner.retryScheduled
      || owner.attemptInFlight then
    { owner, action }
  else
    let (owner, marks) := owner.renewWindow nowMs
    if owner.attempts ≥ kMaxAttemptsPerWindow then { owner, action, marks }
    else
      { owner :=
          { owner with
            attempts := owner.attempts + 1
            attemptInFlight := true
            state := .RetryPending }
        action :=
          { action with
            startAttempt := true
            attempt := owner.attempts + 1 }
        marks := marks ++ [.Charged] }

/-- An event of a network that is older than the one in use. -/
def staleEvent (owner : RustDeskConnectionContinuityOwner)
    (networkGeneration : Nat) : Bool :=
  networkGeneration ≠ 0 && networkGeneration < owner.networkGeneration

/-- The state after an error that is not tried again. -/
def fatalState : RustDeskTransportErrorClass → RustDeskContinuityState
  | .Auth | .TwoFactor | .Approval => .ReauthRequired
  | _ => .Terminal

def onTransportEvent (owner : RustDeskConnectionContinuityOwner)
    (event : RustDeskTransportEvent) : Decision :=
  if owner.staleEvent event.networkGeneration then { owner }
  else
    let owner :=
      { owner with
        networkGeneration :=
          if event.networkGeneration ≠ 0 then event.networkGeneration
          else owner.networkGeneration
        networkAvailable := event.networkAvailable }
    if !event.error && !event.userInitiated then
      { owner :=
          { owner with
            state := .Connected
            retryScheduled := false
            attemptInFlight := false
            nextRetryMs := 0
            fastQuiesced := false } }
    else
      let action : RustDeskContinuityAction :=
        { visibleTransportLost := true
          fastQuiesce := true }
      if event.userInitiated || !isRetryable event.errorClass then
        { owner :=
            { owner with
              fastQuiesced := true
              state := fatalState event.errorClass
              cancelled := true
              retryScheduled := false
              attemptInFlight := false }
          action := { action with terminal := true } }
      else
        -- any transport event ends the attempt that is active
        let owner :=
          { owner with
            fastQuiesced := true
            state := .TransportLost
            attemptInFlight := false }
        if owner.networkAvailable then
          owner.scheduleFirstAttempt event.monotonicMs action
        else { owner, action }

def onNetworkChanged (owner : RustDeskConnectionContinuityOwner)
    (available : Bool) (generation nowMs : Nat) : Decision :=
  if owner.staleEvent generation then { owner }
  else
    let generationChanged := generation ≠ 0 && owner.networkGeneration ≠ 0
      && generation > owner.networkGeneration
    let changed := owner.networkAvailable ≠ available
    let invalidated := generationChanged || changed && !available
    let old := owner.networkGeneration
    let owner :=
      { owner with
        networkGeneration :=
          if generation ≠ 0 then generation else owner.networkGeneration
        networkAvailable := available }
    if owner.cancelled then { owner }
    else if invalidated then
      let action : RustDeskContinuityAction :=
        { visibleTransportLost := true
          fastQuiesce := true
          cancelAttempt := true }
      let owner :=
        { owner with
          fastQuiesced := true
          state := .TransportLost
          retryScheduled := false
          attemptInFlight := false
          nextRetryMs := 0
          attempts := if generationChanged then 0 else owner.attempts
          windowStartedMs :=
            if generationChanged then nowMs else owner.windowStartedMs }
      let marks : List Mark :=
        if generationChanged then [.NewGeneration old generation] else []
      if available then
        let decision := owner.scheduleFirstAttempt nowMs action
        { decision with marks := marks ++ decision.marks }
      else { owner, action, marks }
    else if !available
        || owner.state ≠ .TransportLost && owner.state ≠ .RetryPending then
      { owner }
    else if !changed && (owner.retryScheduled || owner.attemptInFlight) then
      { owner }
    else owner.scheduleFirstAttempt nowMs {}

def poll (owner : RustDeskConnectionContinuityOwner) (nowMs : Nat) :
    Decision :=
  if owner.cancelled || !owner.retryScheduled || !owner.networkAvailable
      || nowMs < owner.nextRetryMs then
    { owner }
  else
    { owner :=
        { owner with
          retryScheduled := false
          attemptInFlight := true
          state := .RetryPending }
      action :=
        { startAttempt := true
          attempt := owner.attempts } }

def kBaseDelaysMs : List Nat := [1000, 2000, 5000, 10000]

/-- The delay before the attempt that follows so many. -/
def retryDelay (owner : RustDeskConnectionContinuityOwner) : Nat :=
  let index := min (owner.attempts - 1) 3
  let jitterPercent : Int :=
    ((owner.sessionGeneration + owner.attempts * 17) % 2 ^ 64 % 41 : Nat) - 20
  let base : Int := kBaseDelaysMs.getD index 0
  (base * (100 + jitterPercent) / 100).toNat

def recordAttemptResult (owner : RustDeskConnectionContinuityOwner)
    (succeeded : Bool) (nowMs : Nat) : Decision :=
  if succeeded then
    { owner :=
        { owner with
          state := .Connected
          retryScheduled := false
          nextRetryMs := 0
          attempts := 0
          attemptInFlight := false
          fastQuiesced := false }
      marks := [.Succeeded] }
  else
    let (owner, marks) := owner.renewWindow nowMs
    let owner := { owner with attemptInFlight := false }
    if owner.attempts ≥ kMaxAttemptsPerWindow || owner.cancelled
        || !owner.networkAvailable then
      { owner :=
          { owner with
            state := .TransportLost
            retryScheduled := false }
        marks }
    else
      { owner :=
          { owner with
            attempts := owner.attempts + 1
            nextRetryMs := (nowMs + owner.retryDelay) % 2 ^ 64
            retryScheduled := true
            state := .RetryPending }
        marks := marks ++ [.Charged] }

def cancel (owner : RustDeskConnectionContinuityOwner) : Decision where
  owner :=
    { owner with
      cancelled := true
      retryScheduled := false
      attemptInFlight := false
      nextRetryMs := 0
      state := .Terminal }

end RustDeskConnectionContinuityOwner

end RemoteDesk.RustDesk
