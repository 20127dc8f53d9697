/-
The broker between a remote session's security-key channel and the
local watcher (rdp_security_key_broker.cpp).

# Brokers and their session

A `Broker` belongs to one connection; the watcher talks to the session,
which outlives its brokers and keeps the notifications still owed
(`Session`). A call of `Exchange` puts its request where the watcher
finds it and waits for the reply.

# The grain of a step

The registry and each broker have a lock of their own. A step of
`System` is one critical section; a call that takes several is a record
of how far it has come (`Call`, `Retirement`, `PollPoint`). What a
caller does in one section of a broker it has found before (`respond`,
`cancel`, `unauthorize`) is an operation that may come at any time.
Waits are steps that change nothing; clocks are the caller's choice
(`CallEnv`). All brokers belong to one session.

`log` is a history of the model, which no step reads.
-/
import RemoteDesk.Lib.Runs

namespace RemoteDesk.SecurityKey

open Lib

-- ================================ requests

inductive Kind where
  | none
  | confirm
  | select
  | pin
  | touch
  | write
  | read
  | release
  | dismiss
  | passkey
deriving DecidableEq, Repr

inductive Authenticator where
  | none
  | usbKey
  | phone
deriving DecidableEq, Repr

structure Request where
  id : Nat := 0
  kind : Kind := .none
  text : List UInt8 := []
  operation : Nat := 0
  retries : Int := -1
  timeoutMs : Nat := 0
  report : List UInt8 := List.replicate 64 0
  payload : List UInt8 := []
deriving DecidableEq, Repr

structure Reply where
  ok : Bool := false
  text : List UInt8 := []
  report : List UInt8 := List.replicate 64 0
  payload : List UInt8 := []
  authenticator : Authenticator := .usbKey
deriving DecidableEq, Repr

def kMaxCtapMessage : Nat := 7609
def kMaxPasskeyReplyBytes : Nat := 16384
def kMinPinCodePoints : Nat := 4
def kMaxPinBytes : Nat := 63
def kMaxProductBytes : Nat := 63

-- ==================================== text

/-- `Utf8Length`: the length and code point of the character in front,
or length 0. -/
def utf8Length (value : List UInt8) : Nat × Nat :=
  match value with
  | [] => (0, 0)
  | lead :: rest =>
    let lead := lead.toNat
    if lead < 0x80 then (1, lead)
    else
      let head : Nat × Nat :=
        if 0xc2 ≤ lead ∧ lead ≤ 0xdf then (2, lead % 0x20)
        else if 0xe0 ≤ lead ∧ lead ≤ 0xef then (3, lead % 0x10)
        else if 0xf0 ≤ lead ∧ lead ≤ 0xf4 then (4, lead % 0x08)
        else (0, 0)
      let length := head.1
      let next := rest.take (length - 1)
      if length = 0 ∨ next.length < length - 1 then (0, 0)
      else if next.any fun byte => byte.toNat / 0x40 ≠ 2 then (0, 0)
      else
        let codePoint := next.foldl
          (fun codePoint byte => codePoint * 0x40 + byte.toNat % 0x40)
          head.2
        if length = 3 ∧ (codePoint < 0x800
            ∨ 0xd800 ≤ codePoint ∧ codePoint ≤ 0xdfff)
          ∨ length = 4 ∧ (codePoint < 0x10000 ∨ 0x10ffff < codePoint)
          then (0, 0)
        else (length, codePoint)

/-- The loop of `SanitizeLabel`; the first argument bounds its turns. -/
def sanitizeLabelFrom (limit : Nat) :
    Nat → List UInt8 → List UInt8 → List UInt8
  | 0, _, clean => clean
  | _ + 1, [], clean => clean
  | turns + 1, byte :: rest, clean =>
    let (length, codePoint) := utf8Length (byte :: rest)
    if length = 0 then sanitizeLabelFrom limit turns rest clean
    else
      let after := (byte :: rest).drop length
      if codePoint < 0x20 ∨ 0x7f ≤ codePoint ∧ codePoint ≤ 0x9f then
        sanitizeLabelFrom limit turns after clean
      else if limit < clean.length + length then clean
      else sanitizeLabelFrom limit turns after
        (clean ++ (byte :: rest).take length)

def sanitizeLabel (value : List UInt8) (limit : Nat) : List UInt8 :=
  sanitizeLabelFrom limit value.length value []

/-- The loop of `ValidPin`: the code points, unless one is refused. -/
def pinCodePoints : Nat → List UInt8 → Option Nat
  | _, [] => some 0
  | 0, _ :: _ => none
  | turns + 1, byte :: rest =>
    let (length, codePoint) := utf8Length (byte :: rest)
    if length = 0 ∨ codePoint = 0 then none
    else (pinCodePoints turns ((byte :: rest).drop length)).map (· + 1)

def validPin (pin : List UInt8) : Bool :=
  pin.length ≤ kMaxPinBytes &&
    match pinCodePoints pin.length pin with
    | none => false
    | some codePoints => kMinPinCodePoints ≤ codePoints

/-- The reply `Respond` keeps for a request of this kind. -/
def Reply.accept (kind : Kind) (reply : Reply) : Option Reply :=
  let payload := if kind ≠ .passkey then [] else reply.payload
  let accepted := { reply with payload := payload }
  let kept : Option Reply :=
    match kind with
    | .confirm | .write => some { accepted with text := [] }
    | .select => some { accepted with
        text := sanitizeLabel accepted.text kMaxProductBytes
        ok := accepted.ok && accepted.authenticator ≠ .none }
    | .passkey =>
      let ok := accepted.ok && accepted.payload ≠ []
        && accepted.payload.length ≤ kMaxPasskeyReplyBytes
      some { accepted with
        text := []
        ok := ok
        payload := if ok then accepted.payload else [] }
    | .pin => some { accepted with ok := accepted.ok && validPin accepted.text }
    | .read =>
      let declared := (accepted.report.getD 5 0).toNat * 256
        + (accepted.report.getD 6 0).toNat
      some { accepted with
        text := []
        ok := accepted.ok && !(0x80 ≤ (accepted.report.getD 4 0).toNat
          && kMaxCtapMessage < declared) }
    | _ => none
  kept.map fun kept => if kept.ok then kept else { kept with text := [] }

-- ================================= brokers

structure Broker where
  closed : Bool := false
  cancelled : Bool := false
  authorized : Bool := false
  authenticator : Authenticator := .none
  product : List UInt8 := []
  pending : Option Request := none
  delivered : Bool := false
  reply : Option Reply := none
deriving DecidableEq, Repr

namespace Broker

/-- A USB key is authorized: the watcher holds it. -/
def holds (b : Broker) : Bool :=
  b.authorized && b.authenticator = .usbKey

def stopped (b : Broker) (userFacing : Bool) : Bool :=
  b.closed || userFacing && b.cancelled

/-- What `Exchange` waits for behind its request. -/
def awake (b : Broker) (userFacing : Bool) : Bool :=
  b.stopped userFacing || b.reply.isSome

/-- What `Exchange` returns. -/
def result (b : Broker) (userFacing : Bool) : Option Reply :=
  if b.awake userFacing && !b.stopped userFacing then b.reply else none

def begin (b : Broker) : Broker :=
  if b.closed then b else { b with cancelled := false }

def cancel (b : Broker) : Broker := { b with cancelled := true }

def unauthorize (b : Broker) : Broker :=
  { b with authorized := false, authenticator := .none, product := [] }

/-- `Close`, and whether a key has to be released. -/
def close (b : Broker) : Broker × Bool :=
  if b.closed then (b, false)
  else ({ b.unauthorize with closed := true, cancelled := true }, b.holds)

/-- The locked part of `Forget`, and whether a key has to be released. -/
def forget (b : Broker) : Broker × Bool :=
  if b.authorized then (b.unauthorize, b.holds) else (b, false)

def poll (b : Broker) : Option (Request × Broker) :=
  if b.closed || b.delivered then none
  else b.pending.map fun request => (request, { b with delivered := true })

/-- `Respond`; no broker when it returns false. -/
def respond (b : Broker) (id : Nat) (reply : Reply) : Option Broker :=
  match b.pending with
  | none => none
  | some request =>
    if b.closed || !b.delivered || b.reply.isSome || request.id ≠ id
      then none
    else (reply.accept request.kind).map fun kept =>
      { b with reply := some kept }

/-- `Exchange` puts its request in place. -/
def place (b : Broker) (request : Request) : Broker :=
  { b with pending := some request, delivered := false, reply := none }

/-- `Exchange` is done with its request. -/
def clear (b : Broker) : Broker :=
  { b with pending := none, delivered := false, reply := none }

/-- `Select` has its answer. -/
def authorize (b : Broker) (reply : Reply) : Broker :=
  if b.closed then b
  else { b with
    authorized := true
    authenticator := reply.authenticator
    product := reply.text }

end Broker

-- ============================== the system

structure Session where
  watched : Bool := false
  release : Bool := false
  dismiss : Option Nat := none
  touch : Option Nat := none
deriving DecidableEq, Repr

/-- How far a call of `Exchange` has come. -/
inductive CallPoint where
  /-- Another request is pending. -/
  | admitting
  /-- The request is in place, the watcher is woken. -/
  | waking
  | answering
  /-- Before the dismissal is posted. -/
  | dismissing
  /-- `Exchange` has returned to `Select`. -/
  | selecting (reply : Reply)
  | returned (result : Option Reply)
deriving DecidableEq, Repr

structure Call where
  broker : Nat
  request : Request
  userFacing : Bool
  /-- `Select` is the caller. -/
  select : Bool
  point : CallPoint
deriving DecidableEq, Repr

/-- Where a call goes when `Exchange` returns: to the rest of `Select`,
or to its end. -/
def Call.back (call : Call) : Option Reply → CallPoint
  | none => .returned none
  | some reply =>
    if call.select && reply.ok then .selecting reply
    else .returned (some reply)

/-- What a call depends on outside: whether its time is over, and the
request ids other brokers take in between. -/
structure CallEnv where
  expired : Bool := false
  timedOut : Bool := false
  skipped : Nat := 0
deriving DecidableEq, Repr

/-- The calls that give up a broker, or its key. -/
inductive RetireKind where
  | attach
  | close
  | detach
  | forget
deriving DecidableEq, Repr

inductive RetirePoint where
  | closing
  | posting
  | pruning
  | done
deriving DecidableEq, Repr

structure Retirement where
  broker : Nat
  kind : RetireKind
  point : RetirePoint := .closing
deriving DecidableEq, Repr

/-- How far a `Poll` has come that found no Release and no Dismiss. -/
inductive PollPoint where
  | asking (broker : Nat)
  | touching
  | done
deriving DecidableEq, Repr

inductive KeyEvent where
  /-- A request is put in place. -/
  | asked (request : Request)
  /-- The watcher receives a request. -/
  | delivered (request : Request)
  | accepted (id : Nat) (reply : Reply)
  /-- `Exchange` returns. -/
  | returned (broker : Nat) (request : Request) (userFacing : Bool)
      (result : Option Reply)
  /-- A dismissal is posted. -/
  | dismissed (id : Nat)
  /-- The watcher receives a dismissal. -/
  | taken (id : Nat)
  | began (broker : Nat)
  | cancelled (broker : Nat)
  /-- `Attach` or `Detach` takes a broker out of the registry. -/
  | removed (broker : Nat)
  | closed (broker : Nat)
  /-- A broker with a USB key is closed, or forgets it. -/
  | owed (broker : Nat)
  /-- Its Release is posted. -/
  | posted (broker : Nat)
  /-- The watcher receives a Release. -/
  | release
  /-- The watcher reports that it let go of the key. -/
  | released
  | granted (broker id : Nat)
  | touched (value : Nat)
deriving DecidableEq, Repr

structure System where
  brokers : Nat → Broker := fun _ => {}
  generation : Nat := 0
  /-- Contexts and their brokers, in the order of the addresses. -/
  registry : List (Nat × Nat) := []
  session : Option Session := none
  lastRequestId : Nat := 0
  calls : List Call := []
  retirements : List Retirement := []
  polls : List PollPoint := []
  log : List KeyEvent := []

namespace System

def note (s : System) (event : KeyEvent) : System :=
  { s with log := s.log ++ [event] }

def setBroker (s : System) (broker : Nat) (b : Broker) : System :=
  { s with brokers := Function.update s.brokers broker b }

def setCall (s : System) (k : Nat) (call : Call) : System :=
  { s with calls := s.calls.set k call }

/-- The locked part of `Post`. -/
def post (s : System) (update : Session → Session) : System :=
  { s with session := s.session.map update }

-- -------------------------------- Exchange

/-- `NextRequestId`, after `skipped` others. -/
def nextRequestId (s : System) (skipped : Nat) : Nat :=
  let id := (s.lastRequestId + skipped + 1) % 2 ^ 32
  if id = 0 then 1 else id

/-- `Exchange` returns. -/
def giveBack (s : System) (k : Nat) (call : Call) (result : Option Reply) :
    System :=
  (s.setCall k { call with point := call.back result }).note
    (.returned call.broker call.request call.userFacing result)

/-- The wait for the pending request of another call. -/
def place (s : System) (k : Nat) (call : Call) (env : CallEnv) : System :=
  let b := s.brokers call.broker
  if b.stopped call.userFacing then s.giveBack k call none
  else if b.pending.isNone then
    let id := s.nextRequestId env.skipped
    let request := { call.request with id := id }
    let s := s.setBroker call.broker (b.place request)
    let s := s.setCall k { call with request := request, point := .waking }
    { s with lastRequestId := id }.note (.asked request)
  else if env.timedOut then s.giveBack k call none
  else s

/-- The first section of a call. -/
def exchange (s : System) (broker : Nat) (request : Request)
    (userFacing select : Bool) (env : CallEnv) : System :=
  let call : Call := {
    broker := broker
    request := { request with id := 0 }
    userFacing := userFacing
    select := select
    point := .admitting }
  let k := s.calls.length
  let s := { s with calls := s.calls ++ [call] }
  if (s.brokers broker).stopped userFacing || env.expired then
    s.giveBack k call none
  else s.place k call env

/-- The wait for the reply, and the end of the request. -/
def answer (s : System) (k : Nat) (call : Call) (env : CallEnv) : System :=
  let b := s.brokers call.broker
  if !b.awake call.userFacing && !env.timedOut then s
  else
    let result := b.result call.userFacing
    let dismiss := call.userFacing && b.delivered && result.isNone
    let s := s.setBroker call.broker b.clear
    if dismiss then s.setCall k { call with point := .dismissing }
    else s.giveBack k call result

def dismiss (s : System) (k : Nat) (call : Call) : System :=
  let s := s.post fun session =>
    { session with dismiss := some call.request.id }
  (s.note (.dismissed call.request.id)).giveBack k call none

/-- The second section of `Select`. -/
def authorize (s : System) (k : Nat) (call : Call) (reply : Reply) :
    System :=
  let b := s.brokers call.broker
  let s := s.setCall k { call with point := .returned (some reply) }
  let s := s.setBroker call.broker (b.authorize reply)
  if b.closed then s else s.note (.granted call.broker call.request.id)

def resume (s : System) (k : Nat) (env : CallEnv) : System :=
  match s.calls[k]? with
  | none => s
  | some call =>
    match call.point with
    | .admitting => s.place k call env
    | .waking => s.setCall k { call with point := .answering }
    | .answering => s.answer k call env
    | .dismissing => s.dismiss k call
    | .selecting reply => s.authorize k call reply
    | .returned _ => s

-- ---------------------------- the registry

/-- `slot = broker`, in a map ordered by the address. -/
def insertSlot (context broker : Nat) : List (Nat × Nat) → List (Nat × Nat)
  | [] => [(context, broker)]
  | (context', broker') :: rest =>
    if context < context' then
      (context, broker) :: (context', broker') :: rest
    else if context = context' then (context, broker) :: rest
    else (context', broker') :: insertSlot context broker rest

def forContext (s : System) (context : Nat) : Option Nat :=
  (s.registry.find? fun entry => entry.1 = context).map (·.2)

def openLocked (s : System) : Option Nat :=
  (s.registry.find? fun entry => !(s.brokers entry.2).closed).map (·.2)

/-- `PruneLocked`. -/
def prune (s : System) : System :=
  match s.session with
  | none => s
  | some session =>
    if session.watched || s.registry ≠ [] then s
    else { s with session := none }

/-- A call that gives up a broker is on its way. -/
def giveUp (s : System) (r : Retirement) : System :=
  { s with retirements := s.retirements ++ [r] }

def attach (s : System) (context : Nat) : System :=
  if context = 0 then s
  else
    let previous := s.forContext context
    let session := s.session.getD {}
    let s := { s with
      registry := insertSlot context s.generation s.registry
      generation := s.generation + 1
      session := some session }
    match previous with
    | none => s
    | some broker =>
      (s.giveUp { broker := broker, kind := .attach }).note
        (.removed broker)

def close (s : System) (context : Nat) : System :=
  match s.forContext context with
  | none => s
  | some broker => s.giveUp { broker := broker, kind := .close }

def detach (s : System) (context : Nat) : System :=
  match s.forContext context with
  | none => s
  | some broker =>
    let s := { s with
      registry := s.registry.filter fun entry => entry.1 ≠ context }
    (s.giveUp { broker := broker, kind := .detach }).note (.removed broker)

def forget (s : System) (broker : Nat) : System :=
  let (b, release) := (s.brokers broker).forget
  let s := s.setBroker broker b
  if release then
    (s.giveUp { broker := broker, kind := .forget, point := .posting }).note
      (.owed broker)
  else s

/-- What follows the posting, or a `Close` that owes nothing. -/
def RetireKind.after (kind : RetireKind) : RetirePoint :=
  if kind = .detach then .pruning else .done

/-- What `Close` adds to the log. -/
def closeEvents (b : Broker) (broker : Nat) : List KeyEvent :=
  if b.closed then []
  else if b.holds then [.closed broker, .owed broker]
  else [.closed broker]

/-- The section of `Close`. -/
def closeBroker (s : System) (k : Nat) (r : Retirement) : System :=
  let b := s.brokers r.broker
  let point := if b.close.2 then .posting else RetireKind.after r.kind
  let s := s.setBroker r.broker b.close.1
  { s with
    retirements := s.retirements.set k { r with point := point }
    log := s.log ++ closeEvents b r.broker }

/-- The section of `Post`, for a Release. -/
def postRelease (s : System) (k : Nat) (r : Retirement) : System :=
  let s := s.post fun session => { session with release := true }
  let point := RetireKind.after r.kind
  let s := { s with
    retirements := s.retirements.set k { r with point := point } }
  s.note (.posted r.broker)

/-- The next section of `Retire` and of what called it. -/
def retire (s : System) (k : Nat) : System :=
  match s.retirements[k]? with
  | none => s
  | some r =>
    match r.point with
    | .closing => s.closeBroker k r
    | .posting => s.postRelease k r
    | .pruning =>
      { s.prune with
        retirements := s.retirements.set k { r with point := .done } }
    | .done => s

-- ----------------------------- the watcher

/-- The first section of `Poll`. -/
def poll (s : System) : System :=
  let session := s.session.getD {}
  if session.release then
    (s.post fun session => { session with release := false }).note .release
  else
    match session.dismiss with
    | some id =>
      (s.post fun session => { session with dismiss := none }).note
        (.taken id)
    | none =>
      let point : PollPoint :=
        match s.openLocked with
        | none => .touching
        | some broker => .asking broker
      { s with polls := s.polls ++ [point] }

/-- The next section of a `Poll`. -/
def pollNext (s : System) (k : Nat) : System :=
  match s.polls[k]? with
  | some (.asking broker) =>
    match (s.brokers broker).poll with
    | none => { s with polls := s.polls.set k .touching }
    | some (request, b) =>
      let s := { s with polls := s.polls.set k .done }
      (s.setBroker broker b).note (.delivered request)
  | some .touching =>
    let session := s.session.getD {}
    let s := { s with polls := s.polls.set k .done }
    match session.touch with
    | none => s
    | some value =>
      (s.post fun session => { session with touch := none }).note
        (.touched value)
  | _ => s

def respond (s : System) (broker id : Nat) (reply : Reply) : System :=
  match (s.brokers broker).respond id reply with
  | none => s
  | some b => (s.setBroker broker b).note (.accepted id reply)

/-- The first section of `Released`. -/
def released (s : System) : System :=
  (s.post fun session => { session with release := false }).note .released

def unauthorize (s : System) (broker : Nat) : System :=
  s.setBroker broker (s.brokers broker).unauthorize

def cancel (s : System) (broker : Nat) : System :=
  (s.setBroker broker (s.brokers broker).cancel).note (.cancelled broker)

def begin (s : System) (broker : Nat) : System :=
  let b := s.brokers broker
  if b.closed then s else (s.setBroker broker b.begin).note (.began broker)

def touch (s : System) (value : Nat) : System :=
  s.post fun session => { session with touch := some value }

end System

-- ==================================== runs

inductive KeyOp where
  | exchange (broker : Nat) (request : Request) (userFacing : Bool)
      (env : CallEnv)
  | select (broker : Nat) (env : CallEnv)
  | resume (k : Nat) (env : CallEnv)
  | attach (context : Nat)
  | close (context : Nat)
  | detach (context : Nat)
  | retire (k : Nat)
  | forget (broker : Nat)
  | poll
  | pollNext (k : Nat)
  | respond (broker id : Nat) (reply : Reply)
  | released
  | unauthorize (broker : Nat)
  | cancel (broker : Nat)
  | begin (broker : Nat)
  | touch (value : Nat)
deriving DecidableEq, Repr

namespace System

def step (s : System) : KeyOp → System
  | .exchange broker request userFacing env =>
    s.exchange broker request userFacing false env
  | .select broker env =>
    s.exchange broker { kind := .select } true true env
  | .resume k env => s.resume k env
  | .attach context => s.attach context
  | .close context => s.close context
  | .detach context => s.detach context
  | .retire k => s.retire k
  | .forget broker => s.forget broker
  | .poll => s.poll
  | .pollNext k => s.pollNext k
  | .respond broker id reply => s.respond broker id reply
  | .released => s.released
  | .unauthorize broker => s.unauthorize broker
  | .cancel broker => s.cancel broker
  | .begin broker => s.begin broker
  | .touch value => s.touch value

/-- A session with its watcher, and no broker yet. -/
def watched : System := { session := some { watched := true } }

end System

end RemoteDesk.SecurityKey
