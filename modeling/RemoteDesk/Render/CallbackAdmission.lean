/-
The gate of platform callbacks (render/callback_admission_context.h).

A callback enters through `tryAcquire` and leaves with its lease; the owner
closes the gate, waits for the leases, and hands over a cleanup that runs
behind the last of them. A step is what one caller does under the lock. A
call that leaves the lock before it returns stays behind: `closeAndWait`
until it wakes or its time is over, `deferCleanupAfterDrain` until the
cleanup it runs itself has run.

`bind` opens the gate again and starts a cycle, but of what the first cycle
left it resets nothing: a second `closeAndWait` finds that one was attempted
and does not close the gate, and a second cleanup finds one scheduled and is
dropped. A function that was moved from is empty.
-/
import RemoteDesk.Render.HandleRegistry

namespace RemoteDesk.Render

open Lib

-- ==================================== gate

/-- The context of callbacks; a cleanup is a `κ`. -/
structure CallbackAdmissionContext (κ : Type) where
  token : Int := 0
  owner : DecoderSessionIdentity := {}
  generation : Nat := 0
  inFlight : Nat := 0
  accepting : Bool := false
  closeAttempted : Bool := false
  closeTimedOut : Bool := false
  cleanupScheduled : Bool := false
  deferredCleanup : Option κ := none
deriving DecidableEq, Repr

/-- What a lease captured. -/
structure Snapshot where
  token : Int
  owner : DecoderSessionIdentity
  generation : Nat
deriving DecidableEq, Repr

namespace CallbackAdmissionContext

variable {κ : Type} (context : CallbackAdmissionContext κ)

def new (owner : DecoderSessionIdentity) : CallbackAdmissionContext κ :=
  { owner, generation := owner.generation }

def bind (token : Int) (owner : DecoderSessionIdentity) (generation : Nat) :
    CallbackAdmissionContext κ × Bool :=
  if context.accepting || context.inFlight ≠ 0 || token ≤ 0 || !owner.valid
      || generation = 0 then (context, false)
  else ({ context with token, owner, generation, accepting := true }, true)

def tryAcquire : CallbackAdmissionContext κ × Option Snapshot :=
  if !context.accepting || context.token ≤ 0 || !context.owner.valid
      || context.generation = 0 then (context, none)
  else ({ context with inFlight := context.inFlight + 1 },
    some ⟨context.token, context.owner, context.generation⟩)

/-- The cleanup is the caller's to run. -/
def release : CallbackAdmissionContext κ × Option κ :=
  let inFlight := context.inFlight - 1
  if inFlight = 0 then
    ({ context with inFlight, deferredCleanup := none },
      context.deferredCleanup)
  else ({ context with inFlight }, none)

/-- `closeAndWait` up to its wait, and what it returns if it does not. -/
def closeAndWait : CallbackAdmissionContext κ × Option Bool :=
  if context.closeAttempted then (context, some (context.inFlight = 0))
  else
    let context :=
      { context with closeAttempted := true, accepting := false }
    if context.inFlight = 0 then
      ({ context with closeTimedOut := false }, some true)
    else (context, none)

/-- `closeAndWait` behind its wait. -/
def closed (drained : Bool) : CallbackAdmissionContext κ :=
  { context with closeTimedOut := !drained }

/-- `deferCleanupAfterDrain` under the lock. The cleanup is kept or dropped,
or is the caller's to run. -/
def deferCleanupAfterDrain (cleanup : κ) :
    CallbackAdmissionContext κ × Option κ :=
  let context := { context with accepting := false }
  if context.cleanupScheduled then (context, none)
  else
    let context := { context with cleanupScheduled := true }
    if context.inFlight = 0 then (context, some cleanup)
    else ({ context with deferredCleanup := some cleanup }, none)

end CallbackAdmissionContext

-- ==================================== runs

/-- What a run shows. A cycle is counted by the bindings up to it. -/
inductive CallbackEvent (κ : Type) where
  | bound
  | granted (cycle : Nat)
  | released (cycle : Nat)
  | closeReturned (drained : Bool)
  | handed (cycle : Nat) (cleanup : κ)
  | deferReturned (ran : Bool)
  | ran (cycle : Nat) (cleanup : κ)
deriving DecidableEq, Repr

/-- A step, by any thread. Leases and cleanups that wait to be run are named
by their places. -/
inductive CallbackStep (κ : Type) where
  | bind (token : Int) (owner : DecoderSessionIdentity) (generation : Nat)
  | tryAcquire
  | release (lease : Nat)
  | closeAndWait
  | wake
  | expire
  | deferCleanupAfterDrain (cleanup : Option κ)
  | run (place : Nat)
deriving DecidableEq, Repr

/-- A cleanup outside the lock. Where `deferCleanupAfterDrain` runs it, that
returns behind it. -/
structure Running (κ : Type) where
  cycle : Nat
  cleanup : κ
  returns : Bool
deriving DecidableEq, Repr

/-- The context, the leases with their cycles, the calls of `closeAndWait`
that wait, the cleanups that were taken to be run, and the cycle. -/
structure CallbackRun (κ : Type) where
  context : CallbackAdmissionContext (Nat × κ)
  leases : List (Nat × Snapshot) := []
  waiting : Nat := 0
  running : List (Running κ) := []
  cycle : Nat := 0
  log : List (CallbackEvent κ) := []
deriving DecidableEq, Repr

namespace CallbackRun

variable {κ : Type} (run : CallbackRun κ)

/-- A call of `closeAndWait` that waits returns. -/
def returnClosed (drained : Bool) : CallbackRun κ :=
  { run with
    context := run.context.closed drained
    waiting := run.waiting - 1
    log := run.log ++ [.closeReturned drained] }

def step : CallbackStep κ → CallbackRun κ
  | .bind token owner generation =>
    let bound := run.context.bind token owner generation
    if bound.2 then
      { run with
        context := bound.1
        cycle := run.cycle + 1
        log := run.log ++ [.bound] }
    else run
  | .tryAcquire =>
    match run.context.tryAcquire with
    | (_, none) => run
    | (context, some snapshot) =>
      { run with
        context
        leases := run.leases ++ [(run.cycle, snapshot)]
        log := run.log ++ [.granted run.cycle] }
  | .release lease =>
    match run.leases[lease]? with
    | none => run
    | some (cycle, _) =>
      let released := run.context.release
      { run with
        context := released.1
        leases := run.leases.eraseIdx lease
        running := run.running ++ (released.2.map fun cleanup =>
          ⟨cleanup.1, cleanup.2, false⟩).toList
        log := run.log ++ [.released cycle] }
  | .closeAndWait =>
    match run.context.closeAndWait with
    | (context, none) => { run with context, waiting := run.waiting + 1 }
    | (context, some drained) =>
      { run with
        context
        log := run.log ++ [.closeReturned drained] }
  | .wake =>
    if run.waiting = 0 ∨ run.context.inFlight ≠ 0 then run
    else run.returnClosed true
  | .expire =>
    if run.waiting = 0 then run
    else run.returnClosed (run.context.inFlight = 0)
  | .deferCleanupAfterDrain none =>
    { run with log := run.log ++ [.deferReturned true] }
  | .deferCleanupAfterDrain (some cleanup) =>
    let log := run.log ++ [.handed run.cycle cleanup]
    match run.context.deferCleanupAfterDrain (run.cycle, cleanup) with
    | (context, none) =>
      { run with context, log := log ++ [.deferReturned false] }
    | (context, some cleanup) =>
      { run with
        context
        running := run.running ++ [⟨cleanup.1, cleanup.2, true⟩]
        log }
  | .run place =>
    match run.running[place]? with
    | none => run
    | some taken =>
      { run with
        running := run.running.eraseIdx place
        log := run.log ++ .ran taken.cycle taken.cleanup
          :: if taken.returns then [.deferReturned true] else [] }

def start (owner : DecoderSessionIdentity) : CallbackRun κ :=
  { context := .new owner }

end CallbackRun

/-- The run that steps lead to. -/
def callbackRun {κ : Type} (owner : DecoderSessionIdentity)
    (steps : List (CallbackStep κ)) : CallbackRun κ :=
  exec CallbackRun.step (.start owner) steps

-- ================================= history

variable {κ : Type}

namespace CallbackEvent

/-- A closing call returns. -/
def returns : CallbackEvent κ → Bool
  | .closeReturned _ => true
  | .deferReturned _ => true
  | _ => false

def grantedIn (cycle : Nat) : CallbackEvent κ → Bool
  | .granted cycle' => cycle' = cycle
  | _ => false

def releasedIn (cycle : Nat) : CallbackEvent κ → Bool
  | .released cycle' => cycle' = cycle
  | _ => false

def handedIn (cycle : Nat) : CallbackEvent κ → Option κ
  | .handed cycle' cleanup => if cycle' = cycle then some cleanup else none
  | _ => none

def ranIn (cycle : Nat) : CallbackEvent κ → Option κ
  | .ran cycle' cleanup => if cycle' = cycle then some cleanup else none
  | _ => none

end CallbackEvent

/-- No lease of a cycle is in flight. -/
def Returned (cycle : Nat) (log : List (CallbackEvent κ)) : Prop :=
  log.countP (CallbackEvent.grantedIn cycle)
    = log.countP (CallbackEvent.releasedIn cycle)

/-- What is right after what happened before. A lease is granted in a cycle
in which no closing call has returned; with the result true, none is in
flight; and a cleanup runs with no lease of its cycle in flight. -/
def CallbackEvent.Right (before : List (CallbackEvent κ)) :
    CallbackEvent κ → Prop
  | .granted _ => Since .bound (fun event => event.returns = false) before
  | .closeReturned true => ∀ cycle, Returned cycle before
  | .ran cycle _ => Returned cycle before
  | _ => True

namespace CallbackRun

/-- The cleanup that was handed over first in a cycle. -/
def firstHanded (run : CallbackRun κ) (cycle : Nat) : Option κ :=
  (run.log.filterMap (CallbackEvent.handedIn cycle)).head?

def ofCycle (cycle : Nat) (taken : Running κ) : Option κ :=
  if taken.cycle = cycle then some taken.cleanup else none

def deferredIn (run : CallbackRun κ) (cycle : Nat) : List κ :=
  run.context.deferredCleanup.toList.filterMap fun deferred =>
    if deferred.1 = cycle then some deferred.2 else none

/-- The cleanups of a cycle that have run, that are to be run, and that are
kept. -/
def cleanups (run : CallbackRun κ) (cycle : Nat) : List κ :=
  run.log.filterMap (CallbackEvent.ranIn cycle)
    ++ run.running.filterMap (ofCycle cycle) ++ run.deferredIn cycle

/-- Where the code keeps its promises. Nobody binds, with nothing in flight,
while a closing call has not returned; no second `closeAndWait` comes to an
open gate, and no empty cleanup; and no cleanup comes first in its cycle
after one of an earlier cycle. -/
def Safe (run : CallbackRun κ) : CallbackStep κ → Prop
  | .bind token owner generation =>
    token > 0 → owner.valid = true → generation ≠ 0 →
      run.context.inFlight = 0 → run.waiting = 0
        ∧ ∀ taken ∈ run.running, taken.returns = false
  | .closeAndWait => ¬ (run.context.closeAttempted = true
      ∧ run.context.accepting = true)
  | .deferCleanupAfterDrain none => run.context.accepting = false
  | .deferCleanupAfterDrain (some _) =>
    run.context.cleanupScheduled = true →
      (run.firstHanded run.cycle).isSome = true
  | _ => True

instance (run : CallbackRun κ) :
    ∀ step : CallbackStep κ, Decidable (run.Safe step)
  | .bind _ _ _ => inferInstanceAs (Decidable (_ → _))
  | .closeAndWait => inferInstanceAs (Decidable (¬ _))
  | .deferCleanupAfterDrain none => inferInstanceAs (Decidable (_ = _))
  | .deferCleanupAfterDrain (some _) => inferInstanceAs (Decidable (_ → _))
  | .tryAcquire => isTrue trivial
  | .release _ => isTrue trivial
  | .wake => isTrue trivial
  | .expire => isTrue trivial
  | .run _ => isTrue trivial

end CallbackRun

end RemoteDesk.Render
