/-
The SSH forwarding manager: profiles and their runtime
(ssh_forwarding_manager.cpp).

# Profiles

An operation on a profile finds its entry and leaves it alone or puts
another in its place (`Outcome`). The operations of a runtime carry the
generation it was started for, and are refused where `generationMatches`
fails. Configurations are checked and brought to their canonical form by
`validateAndNormalize`, which parses hosts with the native endpoint
policy.

# The log

What a runtime has been granted is told to a log: where it began and
ended, and which connections and bytes were accepted in between.
`remainingBytes` and the snapshots change nothing and are left
out. Clocks are arguments.
-/
import RemoteDesk.Endpoint.NativePolicy
import RemoteDesk.Lib.Trim
import Mathlib.Data.List.AList

namespace RemoteDesk.Ssh.Forwarding

open Lib Endpoint

-- =============================== the types

inductive SshForwardingMode where
  | local
  | remote
  | dynamic
  /-- A value that is no enumerator. -/
  | other (value : Nat)
deriving DecidableEq, Repr

inductive SshForwardingState where
  | stopped
  | starting
  | listening
  | stopping
  | failed
deriving DecidableEq, Repr

inductive SshForwardingResult where
  | ok
  | invalidId
  | invalidMode
  | invalidBindHost
  | publicBindNotAllowed
  | invalidBindPort
  | invalidTargetHost
  | invalidTargetPort
  | invalidConnectionLimit
  | dynamicTargetSet
  | profileLimit
  | duplicateId
  | notFound
  | busy
  | invalidState
  | staleSession
  | disabled
  | connectionLimit
  | missingGeneration
  | unsupportedMode
  | transportFailure
  | byteLimit
  | expired
deriving DecidableEq, Repr

/-- The value of a result, as `lastError` keeps it. -/
def SshForwardingResult.code : SshForwardingResult → Int
  | .ok => 0
  | .invalidId => -61
  | .invalidMode => -62
  | .invalidBindHost => -63
  | .publicBindNotAllowed => -64
  | .invalidBindPort => -65
  | .invalidTargetHost => -66
  | .invalidTargetPort => -67
  | .invalidConnectionLimit => -68
  | .dynamicTargetSet => -69
  | .profileLimit => -70
  | .duplicateId => -71
  | .notFound => -72
  | .busy => -73
  | .invalidState => -74
  | .staleSession => -75
  | .disabled => -76
  | .connectionLimit => -77
  | .missingGeneration => -78
  | .unsupportedMode => -79
  | .transportFailure => -80
  | .byteLimit => -81
  | .expired => -82

structure SshForwardingConfig where
  schemaVersion : Nat := 1
  id : List Nat
  mode : SshForwardingMode := .local
  bindHost : List Nat := codes "127.0.0.1"
  bindPort : Int := 0
  targetHost : List Nat := []
  targetPort : Int := 0
  maxConnections : Nat := 16
  enabled : Bool := true
  allowPublicBind : Bool := false
  minBindPort : Nat := 1
  maxBindPort : Nat := 65535
  maxBytes : UInt64 := 0
  expiresAtMs : Nat := 0
deriving DecidableEq, Repr

structure Entry where
  config : SshForwardingConfig
  state : SshForwardingState := .stopped
  sessionGeneration : Nat := 0
  activeConnections : Nat := 0
  lastError : Int := 0
  transferredBytes : UInt64 := 0
  actualBindHost : List Nat := []
  actualBindPort : Int := 0
  actualBindFamily : Int := 0
deriving DecidableEq, Repr

inductive ForwardingEvent where
  | began (id : List Nat) (generation : Nat)
  | ended (id : List Nat)
  | acquired (id : List Nat)
  | released (id : List Nat)
  | recorded (id : List Nat) (bytes : UInt64)
  /-- Every runtime ends. -/
  | reset
deriving DecidableEq, Repr

structure SshForwardingManager where
  entries : AList fun _ : List Nat => Entry := ∅
  log : List ForwardingEvent := []

def kMaxProfiles : Nat := 32
def kMaxConnections : Nat := 64

-- ========================== configurations

def isSpace (ch : Nat) : Bool := (9 ≤ ch && ch ≤ 13) || ch = 32

def trim (value : List Nat) : List Nat := trimBy isSpace value

def isValidMode : SshForwardingMode → Bool
  | .other _ => false
  | _ => true

def isValidPort (port : Int) : Bool := port ≥ 1 && port ≤ 65535

section Configurations

variable (inetPton : List Nat → Option (List Nat))

def isLoopbackHost (host : List Nat) : Bool :=
  let parsed := Native.parseHost inetPton (trim host) .persisted
  if !parsed.ok then false
  else match parsed.endpoint.family with
    | .hostname => parsed.endpoint.canonicalHost = codes "localhost"
    | .ipv4 => parsed.endpoint.canonicalHost.take 4 = codes "127."
    | .ipv6 => parsed.endpoint.canonicalHost = codes "::1"

/-- The bind host in its canonical form. -/
def normalizeBindHost (mode : SshForwardingMode) (bindHost : List Nat) :
    Option (List Nat) :=
  if bindHost = [] ∨ bindHost.length > 255 then none
  else if bindHost = codes "[::]" then some (codes "::")
  else if bindHost ≠ codes "0.0.0.0" ∧ bindHost ≠ codes "::" then
    let parsed := Native.parseHost inetPton bindHost .persisted
    if !parsed.ok ∨ mode = .remote ∧ parsed.endpoint.scope ≠ [] then none
    else some (Native.transportHost parsed.endpoint)
  else some bindHost

/-- The target host in its canonical form. -/
def normalizeTargetHost (mode : SshForwardingMode) (targetHost : List Nat) :
    Option (List Nat) :=
  if targetHost = [] ∨ targetHost.length > 255 then none
  else
    let target := Native.parseHost inetPton targetHost .persisted
    if !target.ok ∨ mode ≠ .remote ∧ target.endpoint.scope ≠ [] then none
    else some (Native.transportHost target.endpoint)

/-- The result, and the configuration as far as it was normalised. -/
def validateAndNormalize (config : SshForwardingConfig) :
    SshForwardingResult × SshForwardingConfig :=
  let config := { config with
    schemaVersion :=
      if config.schemaVersion = 0 then 1 else config.schemaVersion
    id := trim config.id
    bindHost :=
      if trim config.bindHost = [] then codes "127.0.0.1"
      else trim config.bindHost
    targetHost := trim config.targetHost }
  if config.id = [] ∨ config.id.length > 96 then (.invalidId, config)
  else if !isValidMode config.mode then (.invalidMode, config)
  else match normalizeBindHost inetPton config.mode config.bindHost with
  | none => (.invalidBindHost, config)
  | some bindHost =>
    let config := { config with bindHost }
    if !config.allowPublicBind ∧ !isLoopbackHost inetPton config.bindHost then
      (.publicBindNotAllowed, config)
    else if !isValidPort config.bindPort then (.invalidBindPort, config)
    else
      let config := { config with
        minBindPort := if config.minBindPort = 0 then 1 else config.minBindPort
        maxBindPort :=
          if config.maxBindPort = 0 then 65535 else config.maxBindPort }
      if config.minBindPort > config.maxBindPort
          ∨ config.bindPort < config.minBindPort
          ∨ config.bindPort > config.maxBindPort then
        (.invalidBindPort, config)
      else if config.maxConnections = 0
          ∨ config.maxConnections > kMaxConnections then
        (.invalidConnectionLimit, config)
      else if config.mode = .dynamic then
        if config.targetHost ≠ [] ∨ config.targetPort ≠ 0 then
          (.dynamicTargetSet, config)
        else (.ok, config)
      else
        match normalizeTargetHost inetPton config.mode config.targetHost with
        | none => (.invalidTargetHost, config)
        | some targetHost =>
          let config := { config with targetHost }
          if !isValidPort config.targetPort then (.invalidTargetPort, config)
          else (.ok, config)

end Configurations

-- ====================== one profile's part

/-- The result of an operation on a profile; with a new entry and what it
tells the log, where it changes anything. -/
structure Outcome where
  result : SshForwardingResult
  change : Option (Entry × List ForwardingEvent) := none

namespace Entry

def generationMatches (e : Entry) (sessionGeneration : Nat) : Bool :=
  sessionGeneration ≠ 0 && e.sessionGeneration = sessionGeneration

/-- The time limit of a profile has come. -/
def isExpired (e : Entry) (nowMs : Nat) : Bool :=
  e.config.expiresAtMs ≠ 0 && nowMs ≥ e.config.expiresAtMs

def unbind (e : Entry) : Entry :=
  { e with actualBindHost := [], actualBindPort := 0, actualBindFamily := 0 }

/-- A runtime can begin: none is on its way. -/
def startable (e : Entry) : Bool :=
  (e.state = .stopped || e.state = .failed) && e.activeConnections = 0

def start (e : Entry) (sessionGeneration nowMs : Nat) : Outcome :=
  if !e.config.enabled then ⟨.disabled, none⟩
  else if e.isExpired nowMs then
    ⟨.expired, some ({ e with
      state := .failed, lastError := SshForwardingResult.expired.code }, [])⟩
  else if (e.state ≠ .stopped ∧ e.state ≠ .failed)
      ∨ e.activeConnections ≠ 0 then
    ⟨.invalidState, none⟩
  else
    ⟨.ok, some (unbind { e with
      state := .starting, sessionGeneration, lastError := 0
      transferredBytes := 0 }, [.began e.config.id sessionGeneration])⟩

def markListening (e : Entry) (sessionGeneration : Nat)
    (actualBindHost : List Nat) (actualBindPort actualBindFamily : Int) :
    Outcome :=
  if !e.generationMatches sessionGeneration then ⟨.staleSession, none⟩
  else if e.state = .listening then ⟨.ok, none⟩
  else if e.state ≠ .starting then ⟨.invalidState, none⟩
  else
    ⟨.ok, some ({ e with
      state := .listening, actualBindHost, actualBindPort
      actualBindFamily }, [])⟩

def fail (e : Entry) (sessionGeneration : Nat) (error : Int) : Outcome :=
  if !e.generationMatches sessionGeneration then ⟨.staleSession, none⟩
  else if e.state = .stopped then ⟨.invalidState, none⟩
  else ⟨.ok, some ({ e with state := .failed, lastError := error }, [])⟩

def requestStop (e : Entry) (sessionGeneration : Nat) : Outcome :=
  if e.state = .stopped then ⟨.ok, none⟩
  else if !e.generationMatches sessionGeneration then ⟨.staleSession, none⟩
  else ⟨.ok, some ({ e with state := .stopping }, [])⟩

def completeStop (e : Entry) : Outcome :=
  if e.activeConnections ≠ 0 then ⟨.busy, none⟩
  else if e.state ≠ .stopping ∧ e.state ≠ .failed then ⟨.invalidState, none⟩
  else
    ⟨.ok, some (unbind { e with
      state := .stopped, sessionGeneration := 0, lastError := 0 },
      [.ended e.config.id])⟩

def checkRuntimeLimitsLocked (e : Entry) (sessionGeneration nowMs : Nat) :
    Outcome :=
  if !e.generationMatches sessionGeneration then ⟨.staleSession, none⟩
  else if e.state ≠ .listening then ⟨.invalidState, none⟩
  else if e.isExpired nowMs then
    ⟨.expired, some ({ e with
      state := .failed, lastError := SshForwardingResult.expired.code }, [])⟩
  else if e.config.maxBytes ≠ 0
      ∧ e.transferredBytes ≥ e.config.maxBytes then
    ⟨.byteLimit, some ({ e with
      state := .failed, lastError := SshForwardingResult.byteLimit.code }, [])⟩
  else ⟨.ok, none⟩

def acquireConnection (e : Entry) (sessionGeneration nowMs : Nat) :
    Outcome :=
  if !e.generationMatches sessionGeneration then ⟨.staleSession, none⟩
  else
    let limits := e.checkRuntimeLimitsLocked sessionGeneration nowMs
    if limits.result ≠ .ok then limits
    else if e.state ≠ .listening then ⟨.invalidState, none⟩
    else if e.activeConnections ≥ e.config.maxConnections then
      ⟨.connectionLimit, none⟩
    else
      ⟨.ok, some ({ e with activeConnections := e.activeConnections + 1 },
        [.acquired e.config.id])⟩

def releaseConnection (e : Entry) (sessionGeneration : Nat) : Outcome :=
  if !e.generationMatches sessionGeneration then ⟨.staleSession, none⟩
  else if e.activeConnections = 0 then ⟨.invalidState, none⟩
  else
    ⟨.ok, some ({ e with activeConnections := e.activeConnections - 1 },
      [.released e.config.id])⟩

def recordBytes (e : Entry) (sessionGeneration : Nat) (bytes : UInt64)
    (nowMs : Nat) : Outcome :=
  let overrun : Outcome := ⟨.byteLimit, some ({ e with
    state := .failed, lastError := SshForwardingResult.byteLimit.code }, [])⟩
  if !e.generationMatches sessionGeneration then ⟨.staleSession, none⟩
  else
    let limits := e.checkRuntimeLimitsLocked sessionGeneration nowMs
    if limits.result ≠ .ok then limits
    else if e.state ≠ .listening then ⟨.invalidState, none⟩
    else if e.config.maxBytes ≠ 0
        ∧ bytes > e.config.maxBytes - e.transferredBytes then overrun
    else if bytes > 0xffffffffffffffff - e.transferredBytes then overrun
    else
      ⟨.ok, some ({ e with transferredBytes := e.transferredBytes + bytes },
        [.recorded e.config.id bytes])⟩

def checkRuntimeLimits (e : Entry) (sessionGeneration nowMs : Nat) :
    Outcome :=
  if !e.generationMatches sessionGeneration then ⟨.staleSession, none⟩
  else e.checkRuntimeLimitsLocked sessionGeneration nowMs

def reset (e : Entry) : Entry :=
  unbind { e with
    state := .stopped, sessionGeneration := 0, activeConnections := 0
    lastError := 0, transferredBytes := 0 }

end Entry

-- ============================= the manager

namespace SshForwardingManager

/-- An operation on the profile of an id. -/
def within (m : SshForwardingManager) (id : List Nat)
    (f : Entry → Outcome) : SshForwardingResult × SshForwardingManager :=
  match m.entries.lookup id with
  | none => (.notFound, m)
  | some e =>
    match f e with
    | ⟨result, none⟩ => (result, m)
    | ⟨result, some (e, told)⟩ =>
      (result, ⟨m.entries.insert id e, m.log ++ told⟩)

/-- A profile that is put in: what it does not set stays. -/
def upserted (existing : Option Entry) (config : SshForwardingConfig) :
    Entry :=
  { existing.getD { config } with
    config, state := .stopped, sessionGeneration := 0
    activeConnections := 0, lastError := 0, transferredBytes := 0 }

def upsert (inetPton : List Nat → Option (List Nat))
    (m : SshForwardingManager) (config : SshForwardingConfig) :
    SshForwardingResult × SshForwardingManager :=
  let (validation, normalized) := validateAndNormalize inetPton config
  if validation ≠ .ok then (validation, m)
  else
    let existing := m.entries.lookup normalized.id
    if existing = none ∧ m.entries.keys.length ≥ kMaxProfiles then
      (.profileLimit, m)
    else if existing.any fun e => e.activeConnections ≠ 0 then (.busy, m)
    else if existing.any fun e =>
        e.state ≠ .stopped && e.state ≠ .failed then (.busy, m)
    else
      (.ok, ⟨m.entries.insert normalized.id (upserted existing normalized),
        m.log ++ [.ended normalized.id]⟩)

def remove (m : SshForwardingManager) (id : List Nat) :
    SshForwardingResult × SshForwardingManager :=
  match m.entries.lookup id with
  | none => (.notFound, m)
  | some e =>
    if e.state ≠ .stopped ∨ e.activeConnections ≠ 0 then (.busy, m)
    else (.ok, { m with entries := m.entries.erase id })

def start (m : SshForwardingManager) (id : List Nat)
    (sessionGeneration nowMs : Nat) :
    SshForwardingResult × SshForwardingManager :=
  if sessionGeneration = 0 then (.missingGeneration, m)
  else m.within id fun e => e.start sessionGeneration nowMs

def resetRuntimeAfterTransportClose (m : SshForwardingManager) :
    SshForwardingManager where
  entries :=
    { entries := m.entries.entries.map fun s => ⟨s.1, s.2.reset⟩
      nodupKeys := by
        have h := m.entries.nodupKeys
        unfold List.NodupKeys List.keys at h ⊢
        rw [List.map_map]
        exact h }
  log := m.log ++ [.reset]

end SshForwardingManager

-- ==================================== runs

inductive ForwardingOp where
  | upsert (config : SshForwardingConfig)
  | remove (id : List Nat)
  | start (id : List Nat) (sessionGeneration nowMs : Nat)
  | markListening (id : List Nat) (sessionGeneration : Nat)
      (actualBindHost : List Nat) (actualBindPort actualBindFamily : Int)
  | fail (id : List Nat) (sessionGeneration : Nat) (error : Int)
  | requestStop (id : List Nat) (sessionGeneration : Nat)
  | completeStop (id : List Nat)
  | acquireConnection (id : List Nat) (sessionGeneration nowMs : Nat)
  | releaseConnection (id : List Nat) (sessionGeneration : Nat)
  | recordBytes (id : List Nat) (sessionGeneration : Nat) (bytes : UInt64)
      (nowMs : Nat)
  | checkRuntimeLimits (id : List Nat) (sessionGeneration nowMs : Nat)
  | resetRuntimeAfterTransportClose
deriving DecidableEq, Repr

namespace SshForwardingManager

variable (inetPton : List Nat → Option (List Nat))

def call (m : SshForwardingManager) :
    ForwardingOp → SshForwardingResult × SshForwardingManager
  | .upsert config => m.upsert inetPton config
  | .remove id => m.remove id
  | .start id g now => m.start id g now
  | .markListening id g host port family =>
    m.within id fun e => e.markListening g host port family
  | .fail id g error => m.within id fun e => e.fail g error
  | .requestStop id g => m.within id fun e => e.requestStop g
  | .completeStop id => m.within id Entry.completeStop
  | .acquireConnection id g now =>
    m.within id fun e => e.acquireConnection g now
  | .releaseConnection id g => m.within id fun e => e.releaseConnection g
  | .recordBytes id g bytes now =>
    m.within id fun e => e.recordBytes g bytes now
  | .checkRuntimeLimits id g now =>
    m.within id fun e => e.checkRuntimeLimits g now
  | .resetRuntimeAfterTransportClose =>
    (.ok, m.resetRuntimeAfterTransportClose)

def step (m : SshForwardingManager) (op : ForwardingOp) :
    SshForwardingManager := (m.call inetPton op).2

end SshForwardingManager

end RemoteDesk.Ssh.Forwarding
