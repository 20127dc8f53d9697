/-
Calls to a Moonlight host, and the requests they make
(moonlight/core/MoonlightHostApi.cpp).

A call is shaped after its operation (`makeQueryShape`) and checked
(`validateCall`) before anything is sent; the shape says what the transport
has to prove. Endpoint addresses are parsed by the policy they all share.
-/
import RemoteDesk.Endpoint.NativePolicy
import RemoteDesk.Moonlight.Core.HostAnswer

namespace RemoteDesk.Moonlight.Core

open Lib

structure MoonlightHostRequestKey where
  requestId : Nat := 0
  generation : Nat := 0
  ownerToken : Nat := 0
deriving DecidableEq, Repr

def MoonlightHostRequestKey.valid (key : MoonlightHostRequestKey) : Bool :=
  key.requestId ≠ 0 && key.generation ≠ 0 && key.ownerToken ≠ 0

inductive MoonlightHostScheme where
  | Http
  | Https
deriving DecidableEq, Repr

inductive MoonlightHostAddressFamily where
  | Unspecified
  | Ipv4
  | Ipv6
deriving DecidableEq, Repr

structure MoonlightHostAddress where
  value : HostText
  family : MoonlightHostAddressFamily := .Unspecified
  scope : HostText := []
deriving DecidableEq, Repr

def kDefaultHttpPort : Nat := 47989

structure MoonlightHostEndpoint where
  serverName : HostText
  addresses : List MoonlightHostAddress
  httpPort : Nat := kDefaultHttpPort
  httpsPort : Nat := 47984
  pinnedTrustAvailable : Bool := false
  allowHttpPairingCandidate : Bool := false
deriving DecidableEq, Repr

structure MoonlightHostQueryParameter where
  name : HostText
  value : HostText
deriving DecidableEq, Repr

/-- The timeout is in milliseconds. -/
structure MoonlightHostCall where
  key : MoonlightHostRequestKey
  operation : MoonlightHostOperation
  endpoint : MoonlightHostEndpoint
  query : List MoonlightHostQueryParameter := []
  timeout : Int := 7000
  expectedNetworkGeneration : Nat := 0
deriving DecidableEq, Repr

def kMaxAddresses : Nat := 8
def kMaxQueryParameters : Nat := 48
def kMinTimeout : Int := 100
def kMaxStandardTimeout : Int := 30000
def kMaxTimeout : Int := 120000
def kProtocolUniqueId : HostText := codes "0123456789ABCDEF"

-- =================================== texts

def lowerAscii (value : HostText) : HostText := value.map Endpoint.asciiLower

def containsForbiddenUrlText (value : HostText) : Bool :=
  value.any fun ch => ch = 0 || ch = 13 || ch = 10 || ch = 64 || ch = 47
    || ch = 63 || ch = 35

def isSafeAuthorityText (value : HostText)
    (family : MoonlightHostAddressFamily) : Bool :=
  if value = [] || containsForbiddenUrlText value then false
  else
    let family := if family = .Unspecified && value.contains 58 then
      .Ipv6 else family
    value.all fun ch =>
      match family with
      | .Ipv4 => isDigitCode ch || ch = 46
      | .Ipv6 => isHexCode ch || ch = 58 || ch = 46
      | .Unspecified => Endpoint.isAsciiAlnum ch || ch = 46 || ch = 45
          || ch = 58

def transportHostFor (address : MoonlightHostAddress) : HostText :=
  if address.scope = [] then address.value
  else address.value ++ codes "%" ++ address.scope

def isValidUuid (value : HostText) : Bool :=
  value.length = 36 && value.zipIdx.all fun p =>
    if p.2 = 8 || p.2 = 13 || p.2 = 18 || p.2 = 23 then p.1 = 45
    else isHexCode p.1

def isQueryName (value : HostText) : Bool :=
  value ≠ [] && value.length ≤ 64
    && value.all fun ch => Endpoint.isAsciiAlnum ch || ch = 95

def hasLineBreak (value : HostText) : Bool :=
  value.any fun ch => ch = 0 || ch = 13 || ch = 10

def upperHexDigit (d : Nat) : Nat := if d < 10 then 48 + d else 55 + d

def isUnreserved (ch : Nat) : Bool :=
  Endpoint.isAsciiAlnum ch || ch = 45 || ch = 46 || ch = 95 || ch = 126

/-- The loop of `percentEncode`, which stops where the output is too long. -/
def percentEncodeFrom : HostText → HostText → Option HostText
  | [], output => some output
  | ch :: input, output =>
    let output := output ++
      if isUnreserved ch then [ch]
      else [37, upperHexDigit (ch / 16 % 16), upperHexDigit (ch % 16)]
    if output.length > kMaxUrlBytes then none
    else percentEncodeFrom input output

def percentEncode (input output : HostText) : Option HostText :=
  if hasLineBreak input then none else percentEncodeFrom input output

def queryValue (query : List MoonlightHostQueryParameter) (name : HostText) :
    Option HostText :=
  (query.find? fun item => item.name = name).map (·.value)

def exactNames (query : List MoonlightHostQueryParameter)
    (allowed : List HostText) : Bool :=
  query.all fun item => allowed.contains item.name

def parsePositive32 (value : HostText) : Bool :=
  (parseUnsigned maxUint32 value).any (· ≠ 0)

def parseSigned32 (value : HostText) : Bool :=
  let negative := value.head? = some 45
  let magnitudeText := if negative then value.drop 1 else value
  (parseUnsigned maxUint64 magnitudeText).any fun magnitude =>
    magnitude ≤ if negative then 2147483648 else 2147483647

def parseFlag (value : HostText) : Bool :=
  value = codes "0" || value = codes "1"

def validMode (value : HostText) : Bool :=
  match value.splitOn 120 with
  | [width, height, fps] =>
    (parseUnsigned maxUint32 width).any
        (fun width => 320 ≤ width && width ≤ 16384)
      && (parseUnsigned maxUint32 height).any
        (fun height => 200 ≤ height && height ≤ 16384)
      && (parseUnsigned maxUint32 fps).any (· ≤ 1000)
  | _ => false

-- ================================== shapes

structure QueryShape where
  error : MoonlightHostError := .None
  path : HostText := []
  parameters : List MoonlightHostQueryParameter := []
  scheme : MoonlightHostScheme := .Http
  requiresClientIdentity : Bool := false
  requiresServerPin : Bool := false
  readOnly : Bool := false
  xmlResponse : Bool := true
deriving DecidableEq, Repr

/-- A shape over HTTPS, for the pinned host and with the client identity. -/
def secureShape (path : HostText) : QueryShape :=
  { path
    scheme := .Https
    requiresClientIdentity := true
    requiresServerPin := true }

def QueryShape.expectNoQuery (shape : QueryShape) (call : MoonlightHostCall) :
    QueryShape :=
  if call.query = [] then shape else { shape with error := .InvalidQuery }

def appAssetShape (call : MoonlightHostCall) : QueryShape :=
  let shape := { secureShape (codes "/appasset") with
    readOnly := true
    xmlResponse := false }
  if call.query.length = 1
      && (queryValue call.query (codes "appid")).any parsePositive32 then
    { shape with
      parameters := call.query ++ [⟨codes "AssetType", codes "2"⟩,
        ⟨codes "AssetIdx", codes "0"⟩] }
  else { shape with error := .InvalidQuery }

def pairNames : List HostText :=
  [codes "phrase", codes "salt", codes "clientcert", codes "clientchallenge",
    codes "serverchallengeresp", codes "clientpairingsecret"]

/-- Whether a query is the one that asks for the certificate. -/
def isCertQuery (query : List MoonlightHostQueryParameter) : Bool :=
  queryValue query (codes "phrase") = some (codes "getservercert")
    && query.length = 3
    && (queryValue query (codes "salt")).any
      (fun salt => salt.length = 32 && isHex salt false)
    && (queryValue query (codes "clientcert")).any (isHex · false)

def pairShape (call : MoonlightHostCall) : QueryShape :=
  let shape : QueryShape := { path := codes "/pair" }
  let refused := { shape with error := .InvalidQuery }
  let getCert := (queryValue call.query (codes "phrase")).isSome
  let stages := [codes "phrase", codes "clientchallenge",
    codes "serverchallengeresp", codes "clientpairingsecret"].countP
      fun name => (queryValue call.query name).isSome
  if !exactNames call.query pairNames then refused
  else if stages ≠ 1 || (getCert && !isCertQuery call.query) then refused
  else if !getCert && call.query.length ≠ 1 then refused
  else
    { shape with
      error :=
        if call.query.any fun item =>
            item.name ≠ codes "phrase" && !isHex item.value false then
          .InvalidQuery
        else .None
      parameters := [⟨codes "devicename", codes "roth"⟩,
        ⟨codes "updateState", codes "1"⟩] ++ call.query }

def launchNames : List HostText :=
  [codes "appid", codes "mode", codes "additionalStates", codes "sops",
    codes "rikey", codes "rikeyid", codes "localAudioPlayMode",
    codes "surroundAudioInfo", codes "remoteControllersBitmap",
    codes "gcmap", codes "gcpersist"]

/-- The parameters of HDR, each with its only value. -/
def hdrParameters : List MoonlightHostQueryParameter :=
  [⟨codes "hdrMode", codes "1"⟩, ⟨codes "clientHdrCapVersion", codes "0"⟩,
    ⟨codes "clientHdrCapSupportedFlagsInUint32", codes "0"⟩,
    ⟨codes "clientHdrCapMetaDataId", codes "NV_STATIC_METADATA_TYPE_1"⟩,
    ⟨codes "clientHdrCapDisplayData", codes "0x0x0x0x0x0x0x0x0x0x0"⟩]

def hdrNames : List HostText := hdrParameters.map (·.name)

def isLaunchQuery (query : List MoonlightHostQueryParameter) : Bool :=
  let value := queryValue query
  let hdrCount := query.countP fun item => hdrNames.contains item.name
  exactNames query (launchNames ++ hdrNames)
    && launchNames.all (fun name => (value name).isSome)
    && (hdrCount = 0 || hdrCount = hdrNames.length)
    && (value (codes "appid")).any parsePositive32
    && (value (codes "mode")).any validMode
    && (value (codes "rikey")).any
      (fun key => key.length = 32 && isHex key false)
    && (value (codes "rikeyid")).any parseSigned32
    && [codes "additionalStates", codes "sops", codes "localAudioPlayMode",
      codes "gcpersist"].all (fun name => (value name).any parseFlag)
    && [codes "surroundAudioInfo", codes "remoteControllersBitmap",
      codes "gcmap"].all
        (fun name => (value name).any fun text =>
          (parseUnsigned maxUint32 text).isSome)
    && (hdrCount = 0 || hdrParameters.all
      fun parameter => value parameter.name = some parameter.value)

def launchShape (call : MoonlightHostCall) : QueryShape :=
  let shape := secureShape
    (if call.operation = .Launch then codes "/launch" else codes "/resume")
  if isLaunchQuery call.query then
    { shape with
      parameters := call.query ++ [⟨codes "corever", codes "1"⟩] }
  else { shape with error := .InvalidQuery }

/-- The shape of an operation, before the query is put in where it stays as
it is. -/
def operationShape (call : MoonlightHostCall) : QueryShape :=
  match call.operation with
  | .ServerInfo =>
    ({ path := codes "/serverinfo", readOnly := true } :
      QueryShape).expectNoQuery call
  | .AppList =>
    ({ secureShape (codes "/applist") with
      readOnly := true } : QueryShape).expectNoQuery call
  | .AppAsset => appAssetShape call
  | .Pair => pairShape call
  | .PairChallenge =>
    if call.query = [] then
      { secureShape (codes "/pair") with
        parameters := [⟨codes "devicename", codes "roth"⟩,
          ⟨codes "updateState", codes "1"⟩,
          ⟨codes "phrase", codes "pairchallenge"⟩] }
    else { secureShape (codes "/pair") with error := .InvalidQuery }
  | .Unpair => ({ path := codes "/unpair" } : QueryShape).expectNoQuery call
  | .Launch => launchShape call
  | .Resume => launchShape call
  | .Cancel => (secureShape (codes "/cancel")).expectNoQuery call

/-- The loop over the bytes of a query. -/
def queryFits : List MoonlightHostQueryParameter → Nat → Bool
  | [], _ => true
  | parameter :: query, queryBytes =>
    if parameter.name.length > kMaxUrlBytes - queryBytes then false
    else
      let queryBytes := queryBytes + parameter.name.length
      if parameter.value.length > kMaxUrlBytes - queryBytes then false
      else queryFits query (queryBytes + parameter.value.length)

def makeQueryShape (call : MoonlightHostCall) : QueryShape :=
  if call.query.length > kMaxQueryParameters then { error := .InvalidQuery }
  else if !queryFits call.query 0 then { error := .UrlTooLong }
  else
    let shape := operationShape call
    if shape.parameters = [] ∧ shape.error = .None then
      { shape with parameters := call.query }
    else shape

-- ================================== checks

def MoonlightHostAddressFamily.code : MoonlightHostAddressFamily → Nat
  | .Unspecified => 0
  | .Ipv4 => 1
  | .Ipv6 => 2

def addressIdentity (address : MoonlightHostAddress) : HostText :=
  numeral 10 address.family.code ++ codes ":" ++ lowerAscii address.value
    ++ codes "%" ++ address.scope

section Checks

variable (inetPton : HostText → Option HostText)

def validAddress (address : MoonlightHostAddress) : Bool :=
  let parsed := Endpoint.Native.parseHost inetPton (transportHostFor address)
    .persisted
  address.value ≠ [] && address.value.length ≤ 255
    && isSafeAuthorityText address.value address.family
    && address.value.head? ≠ some 91 && address.value.getLast? ≠ some 93
    && !(address.family = .Ipv6 && !address.value.contains 58)
    && !(address.family = .Ipv4 && address.value.contains 58)
    && parsed.ok && parsed.endpoint.canonicalHost = address.value
    && parsed.endpoint.scope = address.scope
    && !(address.family = .Ipv6 && parsed.endpoint.family ≠ .ipv6)
    && !(address.family = .Ipv4 && parsed.endpoint.family ≠ .ipv4)

/-- The loop over addresses: each is valid and none comes twice. -/
def validAddresses : List MoonlightHostAddress → List HostText → Bool
  | [], _ => true
  | address :: addresses, identities =>
    validAddress inetPton address
      && !identities.contains (addressIdentity address)
      && validAddresses addresses (identities ++ [addressIdentity address])

def validServerName (serverName : HostText) : Bool :=
  serverName ≠ [] && serverName.length ≤ 255
    && isSafeAuthorityText serverName
      (if serverName.contains 58 then .Ipv6 else .Unspecified)
    && serverName.head? ≠ some 91 && serverName.getLast? ≠ some 93

/-- The loop over parameters, with the names that were seen. -/
def validParameters : List MoonlightHostQueryParameter → List HostText → Bool
  | [], _ => true
  | parameter :: parameters, names =>
    let lowered := lowerAscii parameter.name
    isQueryName parameter.name && parameter.value.length ≤ 6144
      && !hasLineBreak parameter.value && lowered ≠ codes "uniqueid"
      && lowered ≠ codes "uuid" && !names.contains parameter.name
      && validParameters parameters (names ++ [parameter.name])

def validateCall (call : MoonlightHostCall) (shape : QueryShape) :
    MoonlightHostError :=
  let waitsForPairingUser := call.operation = .Pair
    && queryValue call.query (codes "phrase") = some (codes "getservercert")
  let maximumTimeout :=
    if waitsForPairingUser then kMaxTimeout else kMaxStandardTimeout
  if !call.key.valid then .InvalidRequest
  else if call.timeout < kMinTimeout || call.timeout > maximumTimeout then
    .InvalidRequest
  else if shape.error ≠ .None then shape.error
  else if call.endpoint.httpPort = 0 || call.endpoint.httpsPort = 0 then
    .InvalidPort
  else if !validServerName call.endpoint.serverName then .InvalidEndpoint
  else if call.endpoint.addresses = []
      || call.endpoint.addresses.length > kMaxAddresses then .InvalidEndpoint
  else if !validAddresses inetPton call.endpoint.addresses [] then
    .InvalidEndpoint
  else if (shape.requiresClientIdentity || shape.requiresServerPin)
      && !call.endpoint.pinnedTrustAvailable then .InvalidEndpoint
  else if shape.parameters.length > kMaxQueryParameters then .InvalidQuery
  else if !validParameters shape.parameters [] then .InvalidQuery
  else .None

end Checks

-- ===================================== url

def authorityFor (address : MoonlightHostAddress) : HostText :=
  if address.family = .Ipv6 || address.value.contains 58 then
    codes "[" ++ address.value
      ++ (if address.scope = [] then [] else codes "%25" ++ address.scope)
      ++ codes "]"
  else address.value

def appendParameters : List MoonlightHostQueryParameter → Nat → HostText →
    Option HostText
  | [], _, output => some output
  | parameter :: parameters, separator, output =>
    match percentEncode parameter.value
        (output ++ [separator] ++ parameter.name ++ codes "=") with
    | none => none
    | some output =>
      if output.length > kMaxUrlBytes then none
      else appendParameters parameters 38 output

def schemeText : MoonlightHostScheme → HostText
  | .Http => codes "http"
  | .Https => codes "https"

def buildUrl (address : MoonlightHostAddress) (scheme : MoonlightHostScheme)
    (port : Nat) (shape : QueryShape) (uuid : HostText) : Answer HostText :=
  if !isValidUuid uuid then .error .InvalidRequest
  else
    let output := schemeText scheme ++ codes "://" ++ authorityFor address
      ++ codes ":" ++ numeral 10 port ++ shape.path
    match appendParameters (shape.parameters
        ++ [⟨codes "uniqueid", kProtocolUniqueId⟩, ⟨codes "uuid", uuid⟩]) 63
        output with
    | none => .error .UrlTooLong
    | some url => .ok url

def maskedEndpoint (scheme : MoonlightHostScheme) (port : Nat)
    (path : HostText) : HostText :=
  schemeText scheme ++ codes "://<host>:" ++ numeral 10 port ++ path

end RemoteDesk.Moonlight.Core
