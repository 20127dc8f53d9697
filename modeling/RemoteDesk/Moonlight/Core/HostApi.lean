/-
The Moonlight host API (moonlight/core/MoonlightHostApi.cpp).

`execute` admits a call, and `executeRegistered` runs it: `runScheme` tries
one address after another and stops at the first attempt that may not be
repeated. ServerInfo goes over more than one scheme, and Cancel is verified
by a ServerInfo request.

The transport, the generator of identifiers, the clock, and whoever cancels
a request or moves the network, are what a call meets (`CallWorld`). They
answer once at each place where the code asks.
-/
import RemoteDesk.Moonlight.Core.HostRequest

namespace RemoteDesk.Moonlight.Core

open Lib

-- =============================== transport

inductive MoonlightTransportStage where
  | None
  | Dns
  | Connect
  | Tls
  | Http
  | Body
  | Parse
  | Commit
  | Complete
deriving DecidableEq, Repr

inductive MoonlightTransportSendState where
  | NotSent
  | SentResponseUnknown
  | ConfirmedResponse
deriving DecidableEq, Repr

inductive MoonlightTransportError where
  | None
  | DnsFailure
  | ConnectFailure
  | TlsVersionFailure
  | TlsChainFailure
  | TrustConflict
  | Timeout
  | Cancelled
  | BodyTooLarge
  | ProtocolFailure
deriving DecidableEq, Repr

def mapTransportError : MoonlightTransportError → MoonlightHostError
  | .None => .None
  | .DnsFailure => .DnsFailure
  | .ConnectFailure => .ConnectFailure
  | .TlsVersionFailure => .TlsVersionFailure
  | .TlsChainFailure => .TlsChainFailure
  | .TrustConflict => .TrustConflict
  | .Timeout => .DeadlineExceeded
  | .Cancelled => .Cancelled
  | .BodyTooLarge => .BodyTooLarge
  | .ProtocolFailure => .TransportFailure

structure MoonlightTransportRequest where
  key : MoonlightHostRequestKey
  operation : MoonlightHostOperation
  scheme : MoonlightHostScheme
  family : MoonlightHostAddressFamily
  connectAddress : HostText
  serverName : HostText
  port : Nat
  path : HostText
  url : HostText
  requiresClientIdentity : Bool
  requiresServerPin : Bool
  responseBudget : Nat := kMaxBodyBytes
deriving DecidableEq, Repr

structure MoonlightTransportOutcome where
  error : MoonlightTransportError := .None
  stage : MoonlightTransportStage := .None
  sendState : MoonlightTransportSendState := .NotSent
  httpStatus : Int := 0
  body : HostText := []
  receivedBodyBytes : Nat := 0
  resolvedAddress : HostText := []
  resolvedFamily : MoonlightHostAddressFamily := .Unspecified
deriving DecidableEq, Repr

/-- A request, and what the transport made of it. -/
structure Exchange where
  request : MoonlightTransportRequest
  outcome : MoonlightTransportOutcome
deriving DecidableEq, Repr

-- ================================= results

/-- The diagnostic of an attempt, without its duration. -/
structure MoonlightHostDiagnostic where
  operation : MoonlightHostOperation := .ServerInfo
  stage : MoonlightTransportStage := .None
  family : MoonlightHostAddressFamily := .Unspecified
  sendState : MoonlightTransportSendState := .NotSent
  code : MoonlightHostError := .None
  attemptIndex : Nat := 0
  port : Nat := 0
  httpStatus : Int := 0
  xmlStatus : Option Int := none
  byteCount : Nat := 0
  maskedEndpoint : HostText := []
deriving DecidableEq, Repr

structure MoonlightHostResult where
  key : MoonlightHostRequestKey := {}
  error : MoonlightHostError := .InvalidRequest
  httpStatus : Int := 0
  xmlStatus : Option Int := none
  candidateOnly : Bool := false
  mutationOutcomeUnknown : Bool := false
  serverInfo : Option MoonlightServerInfo := none
  apps : List MoonlightAppEntry := []
  partialAppCount : Nat := 0
  pairing : Option MoonlightPairingPayload := none
  action : Option MoonlightActionResult := none
  resolvedAddress : Option HostText := none
  resolvedFamily : MoonlightHostAddressFamily := .Unspecified
  networkGeneration : Nat := 0
  asset : HostText := []
  diagnostics : List MoonlightHostDiagnostic := []
deriving DecidableEq, Repr

def MoonlightHostResult.ok (result : MoonlightHostResult) : Bool :=
  result.error = .None

-- =================================== world

inductive RequestDisposition where
  | Active
  | Cancelled
  | Stale
deriving DecidableEq, Repr

/-- What one look at a request finds: its disposition, whether the fence
would cancel it, and whether the deadline has passed. -/
structure Check where
  disposition : RequestDisposition := .Active
  fenced : Bool := false
  late : Bool := false
deriving DecidableEq, Repr

def dispositionError (check : Check) : MoonlightHostError :=
  match check.disposition with
  | .Cancelled => .Cancelled
  | .Stale => .StaleRequest
  | .Active => if check.fenced then .StaleRequest else .None

/-- The error to stop with, or `None` where the request may go on. -/
def interruption (check : Check) : MoonlightHostError :=
  if dispositionError check ≠ .None then dispositionError check
  else if check.late then .DeadlineExceeded
  else .None

/-- What one attempt meets. No identifier and no outcome stand for what
throws. -/
structure AttemptWorld where
  before : Check := {}
  uuid : Option HostText := some (codes "01234567-89ab-cdef-0123-456789abcdef")
  transport : MoonlightTransportRequest → Option MoonlightTransportOutcome
  after : Check := {}
  commit : Check := {}

/-- What a run of `runScheme` meets, attempt by attempt; `evicted` is the
place of the first learned port in the order of the map. -/
structure RunWorld where
  attempt : Nat → AttemptWorld
  evicted : Nat := 0

/-- What a call meets: over HTTP in the run it begins with, over HTTPS, over
HTTP in a run behind the one over HTTPS, and in the verification of a
cancel. -/
structure CallWorld where
  http : RunWorld
  https : RunWorld
  fallback : RunWorld
  verification : RunWorld

/-- What a call meets that goes over one scheme. -/
def CallWorld.primary (world : CallWorld) : MoonlightHostScheme → RunWorld
  | .Http => world.http
  | .Https => world.https

-- =========================== learned ports

def kMaxLearnedHttpsPorts : Nat := 64

structure HostApiState where
  learnedHttpsPorts : List (HostText × Nat) := []
deriving DecidableEq, Repr

def addressKey (address : MoonlightHostAddress) : HostText :=
  codes "|" ++ addressIdentity address

def endpointPortCacheKey (endpoint : MoonlightHostEndpoint) : HostText :=
  lowerAscii endpoint.serverName ++ codes ":" ++ numeral 10 endpoint.httpPort
    ++ endpoint.addresses.flatMap addressKey

namespace HostApiState

def learnedHttpsPort (api : HostApiState) (endpoint : MoonlightHostEndpoint) :
    Option Nat :=
  api.learnedHttpsPorts.lookup (endpointPortCacheKey endpoint)

def rememberHttpsPort (api : HostApiState) (evicted : Nat)
    (endpoint : MoonlightHostEndpoint) (port : Nat) : HostApiState :=
  if port = 0 then api
  else
    let key := endpointPortCacheKey endpoint
    let known := api.learnedHttpsPorts
    let room :=
      if known.length ≥ kMaxLearnedHttpsPorts ∧ (known.lookup key).isNone then
        known.eraseIdx (evicted % known.length)
      else known
    { api with
      learnedHttpsPorts := (key, port) :: room.filter (·.1 ≠ key) }

end HostApiState

-- ================================= answers

/-- What an operation reads from an answer. -/
inductive HostAnswer where
  | ServerInfo (info : MoonlightServerInfo)
  | Apps (apps : List MoonlightAppEntry) (partialCount : Nat)
  | Pairing (pairing : MoonlightPairingPayload)
  | Action (action : MoonlightActionResult)
deriving DecidableEq, Repr

def answerOf (operation : MoonlightHostOperation) (root : XmlNode) :
    Answer HostAnswer :=
  match operation with
  | .ServerInfo => (parseServerInfo root).map .ServerInfo
  | .AppList => (parseApps root).map fun apps => .Apps apps.1 apps.2
  | .Pair | .PairChallenge => (parsePairing root).map .Pairing
  | .Unpair | .Launch | .Resume | .Cancel =>
    (parseAction root operation).map .Action
  | .AppAsset => .error .InternalFailure

def parseAnswer (operation : MoonlightHostOperation) (body : HostText) :
    Answer HostAnswer :=
  (parseRoot body).2.bind (answerOf operation)

def MoonlightHostResult.take (result : MoonlightHostResult) :
    HostAnswer → MoonlightHostResult
  | .ServerInfo info => { result with serverInfo := some info }
  | .Apps apps partialAppCount => { result with apps, partialAppCount }
  | .Pairing pairing => { result with pairing := some pairing }
  | .Action action => { result with action := some action }

-- ================================ attempts

/-- What `runScheme` has fixed before its loop. -/
structure RunOrder where
  call : MoonlightHostCall
  networkGeneration : Nat
  scheme : MoonlightHostScheme
  operation : MoonlightHostOperation
  shape : QueryShape
  port : Nat

/-- An attempt: the result so far, whether the loop goes on, what was
exchanged, and the port to remember. -/
structure Attempted where
  result : MoonlightHostResult
  again : Bool := false
  exchange : Option Exchange := none
  learned : Option Nat := none

/-- The result of an attempt that ends with a code. -/
def MoonlightHostResult.close (result : MoonlightHostResult)
    (diagnostic : MoonlightHostDiagnostic) (code : MoonlightHostError) :
    MoonlightHostResult :=
  { result with
    error := code
    diagnostics := result.diagnostics ++ [{ diagnostic with code }] }

def mayBeSent (outcome : MoonlightTransportOutcome) : Bool :=
  outcome.sendState ≠ .NotSent

/-- `outcomeUnknown` on a fresh action, and the flag of the result. -/
def MoonlightHostResult.unknownAction (result : MoonlightHostResult) :
    MoonlightHostResult :=
  { result with
    action := some { outcomeUnknown := true }
    mutationOutcomeUnknown := true }

/-- `classifyPostSendInterruption`, and the result closed with its code. -/
def closeInterrupted (shape : QueryShape) (outcome : MoonlightTransportOutcome)
    (interrupted : MoonlightHostError) (diagnostic : MoonlightHostDiagnostic)
    (result : MoonlightHostResult) : MoonlightHostResult :=
  if interrupted = .StaleRequest && !shape.readOnly && mayBeSent outcome then
    result.unknownAction.close diagnostic .ActionUnknown
  else result.close diagnostic interrupted

/-- An outcome of which the body is over the budget is an error. -/
def bounded (outcome : MoonlightTransportOutcome) :
    MoonlightTransportOutcome :=
  if outcome.receivedBodyBytes > kMaxBodyBytes
      || outcome.body.length > kMaxBodyBytes then
    { outcome with error := .BodyTooLarge, stage := .Body }
  else outcome

def transportError (shape : QueryShape) (outcome : MoonlightTransportOutcome) :
    MoonlightHostError :=
  if !shape.readOnly && mayBeSent outcome then .ActionUnknown
  else mapTransportError outcome.error

def canRetry (more : Bool) (shape : QueryShape)
    (outcome : MoonlightTransportOutcome) : Bool :=
  let error := transportError shape outcome
  more && (shape.readOnly || !mayBeSent outcome)
    && error ≠ .TrustConflict && error ≠ .Cancelled && error ≠ .StaleRequest
    && error ≠ .DeadlineExceeded && error ≠ .BodyTooLarge

def httpError (httpStatus : Int) : MoonlightHostError :=
  if httpStatus = 401 then .HttpUnauthorized
  else if httpStatus = 404 then .HttpNotFound
  else .HttpFailure

section Attempts

variable (inetPton : HostText → Option HostText)

def normalizedTransportWinner (outcome : MoonlightTransportOutcome) :
    Option HostText :=
  if outcome.resolvedAddress = [] || outcome.resolvedFamily = .Unspecified then
    none
  else
    let parsed := Endpoint.Native.parseHost inetPton outcome.resolvedAddress
      .runtime
    if !parsed.ok then none
    else if outcome.resolvedFamily = .Ipv4 && parsed.endpoint.family = .ipv4
        || outcome.resolvedFamily = .Ipv6 && parsed.endpoint.family = .ipv6 then
      some (Endpoint.Native.transportHost parsed.endpoint)
    else none

/-- The answer of a response, up to the last look at the request. -/
def commitAnswer (order : RunOrder) (outcome : MoonlightTransportOutcome)
    (winner : HostText) (commit : Check) (answer : HostAnswer)
    (diagnostic : MoonlightHostDiagnostic) (result : MoonlightHostResult) :
    Attempted :=
  let result := result.take answer
  if interruption commit ≠ .None then
    let closed := closeInterrupted order.shape outcome (interruption commit)
      { diagnostic with stage := .Commit } result
    { result :=
        { closed with
          serverInfo := none
          apps := []
          pairing := none
          action := if closed.error = .ActionUnknown then closed.action
            else none } }
  else
    { result :=
        { result.close { diagnostic with stage := .Complete } .None with
          resolvedAddress := some winner
          resolvedFamily := outcome.resolvedFamily }
      learned :=
        if order.operation = .ServerInfo
            ∧ (order.scheme = .Https
              ∨ !order.call.endpoint.pinnedTrustAvailable) then
          result.serverInfo.bind (·.httpsPort)
        else none }

/-- A response that is XML. -/
def readXml (order : RunOrder) (outcome : MoonlightTransportOutcome)
    (winner : HostText) (commit : Check)
    (diagnostic : MoonlightHostDiagnostic) (result : MoonlightHostResult) :
    Attempted :=
  let xmlStatus := (parseRoot outcome.body).1
  let result := { result with xmlStatus }
  let diagnostic := { diagnostic with xmlStatus, stage := .Parse }
  match parseAnswer order.operation outcome.body with
  | .ok answer =>
    commitAnswer order outcome winner commit answer diagnostic result
  | .error error =>
    { result :=
        { result.close diagnostic error with
          serverInfo := none
          apps := []
          partialAppCount := 0
          pairing := none
          action := none
          mutationOutcomeUnknown :=
            if !order.shape.readOnly && error ≠ .XmlStatusRejected
                && error ≠ .HostBusy then true
            else result.mutationOutcomeUnknown } }

/-- A response that is an asset. -/
def readAsset (order : RunOrder) (outcome : MoonlightTransportOutcome)
    (winner : HostText) (commit : Check)
    (diagnostic : MoonlightHostDiagnostic) (result : MoonlightHostResult) :
    Attempted :=
  if interruption commit ≠ .None then
    { result := closeInterrupted order.shape outcome (interruption commit)
        { diagnostic with stage := .Commit } result }
  else
    { result :=
        { result.close { diagnostic with stage := .Complete } .None with
          asset := outcome.body
          resolvedAddress := some winner
          resolvedFamily := outcome.resolvedFamily } }

/-- What an attempt makes of a response within the budget. -/
def readResponse (order : RunOrder) (outcome : MoonlightTransportOutcome)
    (commit : Check) (diagnostic : MoonlightHostDiagnostic)
    (result : MoonlightHostResult) : Attempted :=
  if outcome.httpStatus < 200 || outcome.httpStatus ≥ 300 then
    { result := result.close diagnostic (httpError outcome.httpStatus) }
  else
    match normalizedTransportWinner inetPton outcome with
    | none =>
      { result :=
          { result.close { diagnostic with stage := .Commit }
              .TransportFailure with
            mutationOutcomeUnknown := !order.shape.readOnly } }
    | some winner =>
      if order.shape.xmlResponse then
        readXml order outcome winner commit diagnostic result
      else readAsset order outcome winner commit diagnostic result

/-- What an attempt makes of an outcome; `more` tells that there is another
address. -/
def readOutcome (order : RunOrder) (more : Bool) (world : AttemptWorld)
    (outcome : MoonlightTransportOutcome)
    (diagnostic : MoonlightHostDiagnostic) (result : MoonlightHostResult) :
    Attempted :=
  let diagnostic :=
    { diagnostic with
      stage := outcome.stage
      sendState := outcome.sendState
      httpStatus := outcome.httpStatus
      byteCount := max outcome.receivedBodyBytes outcome.body.length }
  let result := { result with httpStatus := outcome.httpStatus }
  if interruption world.after ≠ .None then
    { result := closeInterrupted order.shape outcome (interruption world.after)
        diagnostic result }
  else
    let outcome := bounded outcome
    let diagnostic := { diagnostic with stage := outcome.stage }
    if outcome.error ≠ .None then
      let error := transportError order.shape outcome
      let closed := result.close diagnostic error
      if canRetry more order.shape outcome then
        { result := closed, again := true }
      else if error = .ActionUnknown then { result := closed.unknownAction }
      else { result := closed }
    else readResponse inetPton order outcome world.commit diagnostic result

/-- The request of an attempt, or the error where there is none. -/
def requestFor (order : RunOrder) (address : MoonlightHostAddress)
    (uuid : Option HostText) : Answer MoonlightTransportRequest :=
  match uuid with
  | none => .error .InternalFailure
  | some uuid =>
    (buildUrl address order.scheme order.port order.shape uuid).map fun url =>
      { key := order.call.key
        operation := order.operation
        scheme := order.scheme
        family := address.family
        connectAddress := transportHostFor address
        serverName := order.call.endpoint.serverName
        port := order.port
        path := order.shape.path
        url
        requiresClientIdentity := order.shape.requiresClientIdentity
        requiresServerPin := order.shape.requiresServerPin }

/-- The outcome of a request; a transport that throws may have sent it. -/
def outcomeOf (world : AttemptWorld) (request : MoonlightTransportRequest) :
    MoonlightTransportOutcome :=
  (world.transport request).getD
    { error := .ProtocolFailure
      stage := .Http
      sendState := .SentResponseUnknown }

def attempt (order : RunOrder) (more : Bool) (index : Nat)
    (address : MoonlightHostAddress) (world : AttemptWorld)
    (result : MoonlightHostResult) : Attempted :=
  let diagnostic : MoonlightHostDiagnostic :=
    { operation := order.operation
      attemptIndex := index
      family := address.family
      port := order.port
      maskedEndpoint :=
        maskedEndpoint order.scheme order.port order.shape.path }
  if interruption world.before ≠ .None then
    { result := result.close diagnostic (interruption world.before) }
  else
    match requestFor order address world.uuid with
    | .error error => { result := result.close diagnostic error }
    | .ok request =>
      let outcome := outcomeOf world request
      { readOutcome inetPton order more world outcome diagnostic result with
        exchange := some { request, outcome } }

-- ==================================== runs

/-- What a run leaves behind. -/
structure SchemeRun where
  result : MoonlightHostResult
  exchanges : List Exchange := []
  learned : Option Nat := none

/-- The loop of `runScheme` over the addresses that are left. -/
def attempts (order : RunOrder) (world : RunWorld) :
    List MoonlightHostAddress → Nat → MoonlightHostResult → SchemeRun
  | [], _, result => { result }
  | address :: addresses, index, result =>
    let tried := attempt inetPton order (!addresses.isEmpty) index address
      (world.attempt index) result
    if tried.again then
      let rest := attempts order world addresses (index + 1) tried.result
      { rest with exchanges := tried.exchange.toList ++ rest.exchanges }
    else
      { result := tried.result
        exchanges := tried.exchange.toList
        learned := tried.learned }

def makeOrder (call : MoonlightHostCall) (networkGeneration : Nat)
    (scheme : MoonlightHostScheme) (operation : MoonlightHostOperation)
    (shape : QueryShape) (port : Nat) : RunOrder :=
  let secure := scheme = .Https
  { call
    networkGeneration
    scheme
    operation
    port
    shape :=
      if operation = .ServerInfo then
        { shape with
          scheme
          requiresClientIdentity := secure
          requiresServerPin := secure }
      else { shape with scheme } }

/-- The run of `runScheme` on a port that is settled. -/
def runOn (call : MoonlightHostCall) (networkGeneration : Nat)
    (scheme : MoonlightHostScheme) (operation : MoonlightHostOperation)
    (shape : QueryShape) (port : Nat) (world : RunWorld) : SchemeRun :=
  attempts inetPton
    (makeOrder call networkGeneration scheme operation shape port) world
    call.endpoint.addresses 0
    { key := call.key
      networkGeneration
      error := .TransportFailure }

/-- What a call leaves behind: the result, the state of the API and, for the
statements, what was exchanged. -/
structure CallRun where
  result : MoonlightHostResult
  exchanges : List Exchange := []
  api : HostApiState

def runPort (api : HostApiState) (call : MoonlightHostCall)
    (scheme : MoonlightHostScheme) (candidateHttpsPort : Option Nat) : Nat :=
  match scheme with
  | .Https => candidateHttpsPort.getD
      ((api.learnedHttpsPort call.endpoint).getD call.endpoint.httpsPort)
  | .Http => call.endpoint.httpPort

def runScheme (api : HostApiState) (call : MoonlightHostCall)
    (networkGeneration : Nat) (scheme : MoonlightHostScheme)
    (operation : MoonlightHostOperation) (shape : QueryShape)
    (candidateHttpsPort : Option Nat) (world : RunWorld) : CallRun :=
  let run := runOn inetPton call networkGeneration scheme operation shape
    (runPort api call scheme candidateHttpsPort) world
  { result := run.result
    exchanges := run.exchanges
    api := match run.learned with
      | none => api
      | some port => api.rememberHttpsPort world.evicted call.endpoint port }

end Attempts

-- =================================== calls

/-- The fields of a plaintext candidate that a secure result takes over. -/
def MoonlightHostResult.takeCandidate (secure candidate : MoonlightHostResult) :
    MoonlightHostResult :=
  { secure with
    serverInfo := candidate.serverInfo
    httpStatus := candidate.httpStatus
    xmlStatus := candidate.xmlStatus
    resolvedAddress := candidate.resolvedAddress
    resolvedFamily := candidate.resolvedFamily
    candidateOnly := true }

section Calls

variable (inetPton : HostText → Option HostText)

/-- The route over a plaintext candidate that told a port. -/
def candidateRoute (call : MoonlightHostCall) (candidate secure : CallRun) :
    CallRun :=
  let allowed := call.endpoint.allowHttpPairingCandidate
  let diagnostics := candidate.result.diagnostics ++ secure.result.diagnostics
  { secure with
    exchanges := candidate.exchanges ++ secure.exchanges
    result :=
      if secure.result.error = .HttpUnauthorized && allowed then
        { candidate.result with candidateOnly := true, diagnostics }
      else if secure.result.error = .TrustConflict && allowed then
        { secure.result.takeCandidate candidate.result with diagnostics }
      else { secure.result with diagnostics } }

/-- The route of a host that refused the client; `candidate` is the plaintext
run behind the secure one. -/
def refusedRoute (secure candidate : CallRun) : CallRun :=
  let diagnostics := secure.result.diagnostics ++ candidate.result.diagnostics
  let told := candidate.result.ok && candidate.result.serverInfo.isSome
  { candidate with
    exchanges := secure.exchanges ++ candidate.exchanges
    result :=
      { candidate.result with
        diagnostics
        candidateOnly := if told then true
          else candidate.result.candidateOnly } }

/-- The route of a host with another certificate than the pinned one. -/
def conflictRoute (secure candidate : CallRun) : CallRun :=
  let diagnostics := secure.result.diagnostics ++ candidate.result.diagnostics
  let told := candidate.result.ok && candidate.result.serverInfo.isSome
  { candidate with
    exchanges := secure.exchanges ++ candidate.exchanges
    result :=
      { if told then secure.result.takeCandidate candidate.result
          else secure.result with
        diagnostics
        error := .TrustConflict } }

/-- The route that begins over HTTPS, in the state the API has by then. -/
def secureRoute (api : HostApiState) (call : MoonlightHostCall)
    (networkGeneration : Nat) (shape : QueryShape) (world : CallWorld) :
    CallRun :=
  let allowed := call.endpoint.allowHttpPairingCandidate
  let secure := runScheme inetPton api call networkGeneration .Https
    call.operation shape none world.https
  let candidate := runScheme inetPton secure.api call networkGeneration .Http
    call.operation shape none world.fallback
  if secure.result.error = .HttpUnauthorized && allowed then
    refusedRoute secure candidate
  else if secure.result.error ≠ .TrustConflict || !allowed then secure
  else conflictRoute secure candidate

def serverInfoRoutes (api : HostApiState) (call : MoonlightHostCall)
    (networkGeneration : Nat) (shape : QueryShape) (world : CallWorld) :
    CallRun :=
  if !call.endpoint.pinnedTrustAvailable then
    runScheme inetPton api call networkGeneration .Http call.operation shape
      none world.http
  else if call.endpoint.httpPort ≠ kDefaultHttpPort
      && (api.learnedHttpsPort call.endpoint).isNone then
    let candidate := runScheme inetPton api call networkGeneration .Http
      call.operation shape none world.http
    match candidate.result.ok, candidate.result.serverInfo with
    | true, some info =>
      candidateRoute call candidate
        (runScheme inetPton candidate.api call networkGeneration .Https
          call.operation shape
          (some (info.httpsPort.getD call.endpoint.httpsPort)) world.https)
    | _, _ =>
      let run := secureRoute inetPton candidate.api call networkGeneration
        shape world
      { run with exchanges := candidate.exchanges ++ run.exchanges }
  else secureRoute inetPton api call networkGeneration shape world

def verificationShape : QueryShape :=
  { secureShape (codes "/serverinfo") with readOnly := true }

/-- What the verification of an accepted cancel makes of its result. -/
def verifiedResult (primary verification : MoonlightHostResult)
    (action : MoonlightActionResult) : MoonlightHostResult :=
  let primary :=
    { primary with
      diagnostics := primary.diagnostics ++ verification.diagnostics }
  match verification.ok, verification.serverInfo with
  | true, some info =>
    if reportsBusy info.state && info.currentGame ≠ 0 then
      { primary with
        error := .HostBusy
        action := some { action with accepted := false } }
    else primary
  | _, _ =>
    { primary with
      error :=
        if verification.error = .Cancelled
            || verification.error = .StaleRequest
            || verification.error = .TrustConflict then verification.error
        else .ActionUnknown
      action := some
        { action with
          accepted := false
          outcomeUnknown := true }
      mutationOutcomeUnknown := true }

/-- Every other operation: the primary run, and the verification of a cancel
that was accepted. -/
def primaryRoute (api : HostApiState) (call : MoonlightHostCall)
    (networkGeneration : Nat) (shape : QueryShape) (world : CallWorld) :
    CallRun :=
  let primary := runScheme inetPton api call networkGeneration shape.scheme
    call.operation shape none (world.primary shape.scheme)
  match primary.result.action with
  | none => primary
  | some action =>
    if call.operation ≠ .Cancel || !primary.result.ok
        || !action.accepted then
      primary
    else
      let verification := runScheme inetPton primary.api call
        networkGeneration .Https .ServerInfo verificationShape none
        world.verification
      { verification with
        result := verifiedResult primary.result verification.result action
        exchanges := primary.exchanges ++ verification.exchanges }

def executeRegistered (api : HostApiState) (call : MoonlightHostCall)
    (networkGeneration : Nat) (shape : QueryShape) (world : CallWorld) :
    CallRun :=
  let error := validateCall inetPton call shape
  if error ≠ .None then
    { api
      result := { key := call.key, networkGeneration, error } }
  else if call.operation = .ServerInfo then
    serverInfoRoutes inetPton api call networkGeneration shape world
  else primaryRoute inetPton api call networkGeneration shape world

-- =============================== admission

/-- What `execute` finds before it registers a call: whether the API is still
there, with a transport and a generator, what the fence reports as generation
and as available, and who else is at work. -/
structure Admission where
  released : Bool := false
  transport : Bool := true
  uuidGenerator : Bool := true
  network : Option (Nat × Bool) := some (1, true)
  shuttingDown : Bool := false
  busy : Bool := false
deriving DecidableEq, Repr

/-- The generation a call runs under, or why it does not. -/
def admittedGeneration (call : MoonlightHostCall) (admission : Admission) :
    Answer Nat :=
  if !admission.transport || !admission.uuidGenerator then
    .error .InvalidRequest
  else
    match admission.network with
    | none => .error .StaleRequest
    | some (generation, available) =>
      if !available || generation = 0
          || call.expectedNetworkGeneration ≠ 0
            && call.expectedNetworkGeneration ≠ generation then
        .error .StaleRequest
      else if admission.shuttingDown then .error .ShuttingDown
      else if admission.busy then .error .RequestBusy
      else .ok generation

def execute (api : HostApiState) (call : MoonlightHostCall)
    (admission : Admission) (world : CallWorld) : CallRun :=
  let shape := makeQueryShape call
  let error :=
    if admission.released then .ShuttingDown
    else validateCall inetPton call shape
  if error ≠ .None then { api, result := { key := call.key, error } }
  else
    match admittedGeneration call admission with
    | .error error =>
      let networkGeneration :=
        if !admission.transport || !admission.uuidGenerator then 0
        else (admission.network.map (·.1)).getD 0
      { api, result := { key := call.key, error, networkGeneration } }
    | .ok networkGeneration =>
      executeRegistered inetPton api call networkGeneration shape world

end Calls

end RemoteDesk.Moonlight.Core
