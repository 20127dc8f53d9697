/-
Public handles of native objects (render/opaque_handle_registry.h).

A handle is a token, never an address. The registry maps it to an entry,
which is shared: the leases granted on a token hold its operation lock, and
so does the destroy call that took the entry out of the map, alone. A step is
what one of them does under one lock; `acquire` takes both, and finds the
second one free or shared, since the calls that take it alone have taken the
entry out of the map before. An entry is named by its place on `heap`, which
keeps every entry that was ever made.
-/
import RemoteDesk.Lib.Runs

namespace RemoteDesk.Render

open Lib

-- ================================= entries

structure DecoderSessionIdentity where
  sessionId : Nat := 0
  generation : Nat := 0
  ownerToken : Nat := 0
deriving DecidableEq, Repr

def DecoderSessionIdentity.valid (owner : DecoderSessionIdentity) : Bool :=
  owner.sessionId ≠ 0 && owner.generation ≠ 0 && owner.ownerToken ≠ 0

/-- An entry, with its object until that is moved out. -/
structure Entry (T : Type) where
  object : Option T
  boundOwner : DecoderSessionIdentity
  generation : Nat
  active : Bool
  detached : Bool
  destroying : Bool := false
deriving DecidableEq, Repr

variable {T : Type}

def Entry.new (value : T) (identity : DecoderSessionIdentity) : Entry T :=
  { object := some value
    boundOwner := identity
    generation := identity.generation
    active := identity.valid
    detached := !identity.valid }

/-- A lease, which holds the operation lock of its entry with others. -/
structure Lease (T : Type) where
  entry : Nat
  object : T
  owner : DecoderSessionIdentity
  generation : Nat
deriving DecidableEq, Repr

structure OpaqueHandleRegistry (T : Type) where
  nextToken : Nat := 1
  entries : List (Int × Nat) := []
  heap : List (Entry T) := []
deriving DecidableEq, Repr

namespace OpaqueHandleRegistry

variable (r : OpaqueHandleRegistry T)

def lookup (token : Int) : Option Nat :=
  (r.entries.find? fun p => p.1 = token).map Prod.snd

/-- The loop of `registerObject`: a token, and the counter behind it. The
counter has 64 bits, so this many rounds see all its values. -/
def freshToken : Nat → Nat → Option (Int × Nat)
  | 0, _ => none
  | rounds + 1, raw =>
    let next := (raw + 1) % 2 ^ 64
    if raw = 0 ∨ raw > 2 ^ 63 - 1 then freshToken rounds next
    else if r.lookup raw = none then some (raw, next)
    else freshToken rounds next

/-- 0 is no token. Nothing changes where no token is left, and the call does
not return. -/
def registerObject (object : Option T) (owner : DecoderSessionIdentity) :
    OpaqueHandleRegistry T × Int :=
  match object with
  | none => (r, 0)
  | some object =>
    match r.freshToken (2 ^ 64) r.nextToken with
    | none => (r, 0)
    | some (token, nextToken) =>
      ({ nextToken
         entries := r.entries ++ [(token, r.heap.length)]
         heap := r.heap ++ [Entry.new object owner] }, token)

def findLocked (token : Int) : Option (Nat × Entry T) :=
  if token ≤ 0 then none
  else (r.lookup token).bind fun index =>
    r.heap[index]?.map fun entry => (index, entry)

def update (index : Nat) (entry : Entry T) : OpaqueHandleRegistry T :=
  { r with heap := r.heap.set index entry }

def bind (token : Int) (owner : DecoderSessionIdentity) :
    OpaqueHandleRegistry T × Bool :=
  if !owner.valid then (r, false)
  else match r.findLocked token with
    | none => (r, false)
    | some (index, entry) =>
      if entry.destroying
          || (entry.boundOwner.valid && entry.boundOwner ≠ owner) then
        (r, false)
      else (r.update index { entry with
        boundOwner := owner
        generation := owner.generation
        active := true
        detached := false }, true)

def activate (token : Int) (owner : DecoderSessionIdentity) :
    OpaqueHandleRegistry T × Bool := r.bind token owner

def deactivate (token : Int) (owner : DecoderSessionIdentity) :
    OpaqueHandleRegistry T × Bool :=
  if !owner.valid then (r, false)
  else match r.findLocked token with
    | none => (r, false)
    | some (index, entry) =>
      if entry.destroying || entry.boundOwner ≠ owner then (r, false)
      else (r.update index { entry with active := false, detached := true },
        true)

def acquire (token : Int) (owner : DecoderSessionIdentity) :
    Option (Lease T) :=
  if token ≤ 0 || !owner.valid then none
  else match r.findLocked token with
    | none => none
    | some (index, entry) =>
      if entry.destroying || !entry.active || entry.detached
          || entry.boundOwner ≠ owner then none
      else entry.object.map fun object =>
        ⟨index, object, entry.boundOwner, entry.generation⟩

/-- `destroyInternal` under the lock of the registry: the entry that the
caller keeps. Without an owner, the token is enough. -/
def destroyTake (token : Int)
    (expectedOwner : Option DecoderSessionIdentity) :
    OpaqueHandleRegistry T × Option Nat :=
  match r.findLocked token with
  | none => (r, none)
  | some (index, entry) =>
    if entry.destroying
        || expectedOwner.any (fun owner => entry.boundOwner ≠ owner) then
      (r, none)
    else
      ({ r.update index { entry with
            active := false
            detached := true
            destroying := true } with
          entries := r.entries.filter fun p => p.1 ≠ token }, some index)

/-- `destroyInternal` under the operation lock: the object is moved out. -/
def destroyDrain (index : Nat) : OpaqueHandleRegistry T × Option T :=
  match r.heap[index]? with
  | none => (r, none)
  | some entry => (r.update index { entry with object := none }, entry.object)

end OpaqueHandleRegistry

-- ==================================== runs

/-- What a run shows of a token. A lease is granted to an owner; an entry is
taken by the destroy call that the object is handed to later. -/
inductive HandleEvent (T : Type) where
  | registered (token : Int) (object : T)
  | bound (token : Int) (owner : DecoderSessionIdentity)
  | deactivated (token : Int)
  | granted (token : Int) (owner : DecoderSessionIdentity)
  | released (token : Int)
  | taken (token : Int)
  | handed (token : Int) (object : Option T)
deriving DecidableEq, Repr

/-- A step, by any thread. A lease and a destroy call that waits are named by
their places. -/
inductive HandleStep (T : Type) where
  | registerObject (object : Option T) (owner : DecoderSessionIdentity)
  | bind (token : Int) (owner : DecoderSessionIdentity)
  | activate (token : Int) (owner : DecoderSessionIdentity)
  | deactivate (token : Int) (owner : DecoderSessionIdentity)
  | acquire (token : Int) (owner : DecoderSessionIdentity)
  | release (lease : Nat)
  | destroy (token : Int) (owner : Option DecoderSessionIdentity)
  | drain (caller : Nat)
deriving DecidableEq, Repr

/-- The registry, the leases that are out and the destroy calls that wait for
an operation lock, each with the token it was asked for. -/
structure HandleRun (T : Type) where
  registry : OpaqueHandleRegistry T := {}
  leases : List (Int × Lease T) := []
  waiting : List (Int × Nat) := []
  log : List (HandleEvent T) := []
deriving DecidableEq, Repr

namespace HandleRun

variable (run : HandleRun T)

/-- A call of the registry, and what it shows where it returns true. -/
def called (result : OpaqueHandleRegistry T × Bool) (event : HandleEvent T) :
    HandleRun T :=
  { run with
    registry := result.1
    log := if result.2 then run.log ++ [event] else run.log }

/-- One step. A destroy call goes on where nobody else holds the operation
lock of its entry. -/
def step : HandleStep T → HandleRun T
  | .registerObject object owner =>
    let result := run.registry.registerObject object owner
    match object with
    | none => run
    | some object =>
      if result.2 = 0 then run
      else
        { run with
          registry := result.1
          log := run.log ++ [.registered result.2 object]
            ++ if owner.valid then [.bound result.2 owner] else [] }
  | .bind token owner =>
    run.called (run.registry.bind token owner) (.bound token owner)
  | .activate token owner =>
    run.called (run.registry.activate token owner) (.bound token owner)
  | .deactivate token owner =>
    run.called (run.registry.deactivate token owner) (.deactivated token)
  | .acquire token owner =>
    match run.registry.acquire token owner with
    | none => run
    | some lease =>
      { run with
        leases := run.leases ++ [(token, lease)]
        log := run.log ++ [.granted token lease.owner] }
  | .release lease =>
    match run.leases[lease]? with
    | none => run
    | some (token, _) =>
      { run with
        leases := run.leases.eraseIdx lease
        log := run.log ++ [.released token] }
  | .destroy token owner =>
    if owner.any (fun owner => !owner.valid) then run
    else
      match run.registry.destroyTake token owner with
      | (_, none) => run
      | (registry, some index) =>
        { run with
          registry
          waiting := run.waiting ++ [(token, index)]
          log := run.log ++ [.taken token] }
  | .drain caller =>
    match run.waiting[caller]? with
    | none => run
    | some (token, index) =>
      if run.leases.any fun lease => lease.2.entry = index then run
      else
        let drained := run.registry.destroyDrain index
        { run with
          registry := drained.1
          waiting := run.waiting.eraseIdx caller
          log := run.log ++ [.handed token drained.2] }

end HandleRun

/-- The run that steps lead to. -/
def handleRun (steps : List (HandleStep T)) : HandleRun T :=
  exec HandleRun.step {} steps

end RemoteDesk.Render
